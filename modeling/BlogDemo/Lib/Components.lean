/-
  File:      BlogDemo/Lib/Components.lean
  Subject:   COMPONENTS THAT SHOW WHAT THEY LOAD. A load fetches, and writes what it read to the
             variables of its component; a write is sent and, answered well, starts a load. Any number
             of both are under way at once, and they are answered in any order.

  * `load`, `submit` -- the two kinds of flow, up to what they do with what they got;
  * `World.step`, `Step` -- one step, as a function and as the relation it is (`step_view`). A component
    that cannot be rendered is unmounted;
  * `Overwrites` -- what loads, writes and inputs do to what is shown;
  * `Latest` -- with no load under way, what is shown is what the last one read, for the parameter
    there is;
    **`run_latest`** -- of a run that reads no body too late every world is so.
-/
import BlogDemo.Lib.EventLoop
import BlogDemo.Lib.Js
import BlogDemo.Lib.Runs

namespace Components

open Js Atomic EventLoop Runs

variable {V P S I Q R : Type}

/-! ## 1. Flows -/

/-- What a flow does at once: it writes the variables, or it starts a load. -/
inductive Access (V P : Type) where
  | set (f : V → V)
  | start (p : P)

abbrev Access.Out (_ : Access V P) : Type := Unit

/-- The variables, and the loads that were started. -/
def access : Apply (Access V P) Access.Out (V × List P)
  | .set f, (v, started) => ((), (f v, started))
  | .start p, (v, started) => ((), (v, started ++ [p]))

inductive Wait (Q R : Type) where
  | fetch (req : Q)
  | json (res : R)

abbrev Wait.Out : Wait Q R → Type
  | .fetch _ => Except Error R
  | .json _ => Except Error Json

abbrev Flow (V P Q R α : Type) := Code (@Access.Out V P) (@Wait.Out Q R) α

abbrev Async (V P Q R α : Type) := ExceptT Error (Flow V P Q R) α

/-- Where a flow waits, or how it ended. -/
abbrev Left (V P Q R : Type) := Rest (@Access.Out V P) (@Wait.Out Q R) (Except Error Unit)

def write (f : V → V) : Async V P Q R Unit :=
  ExceptT.mk (.call (.now (.set f)) fun _ => .ret (.ok ()))

def start (p : P) : Async V P Q R Unit :=
  ExceptT.mk (.call (.now (.start p)) fun _ => .ret (.ok ()))

/-- `await fetch(…)` -/
def fetch (req : Q) : Async V P Q R R := ExceptT.mk (.call (.await (.fetch req)) .ret)

/-- `await res.json()` -/
def json (res : R) : Async V P Q R Json := ExceptT.mk (.call (.await (.json res)) .ret)

/-- Fetch, and do this with the body. -/
def load (req : Q) (body : Json → Async V P Q R Unit) : Async V P Q R Unit := do
  let res ← fetch req
  let json ← json res
  body json

/-- Send, and do this when it was answered well. -/
def submit (ok : R → Bool) (req : Q) (done : Async V P Q R Unit) : Async V P Q R Unit := do
  let res ← fetch req
  if ok res then done

/-! ## 2. The world -/

structure Component (V P S I Q R : Type) where
  load : P → Async V P Q R Unit
  submit : S → Async V P Q R Unit
  /-- What an input writes, and the loads it starts. -/
  input : I → V → V × List P
  /-- What the button sends, if it is there. -/
  button : V → Option S
  /-- Rendering does not throw. -/
  renders : V → Bool

structure Load (V P Q R : Type) where
  param : P
  /-- What it read. -/
  read : Option Json
  left : Left V P Q R

structure Write (V P S Q R : Type) where
  form : S
  left : Left V P Q R

structure World (V P S Q R : Type) where
  vars : V
  mounted : Bool
  /-- In the order in which they were started. -/
  loads : List (Load V P Q R)
  writes : List (Write V P S Q R)

inductive Action (I R : Type) where
  | input (i : I)
  | press
  | respond (k : Nat) (r : Except Error R)
  | read (k : Nat) (r : Except Error Json)
  | answer (k : Nat) (r : Except Error R)

def World.init (v : V) : World V P S Q R := ⟨v, true, [], []⟩

/-- The load has not come to its end. -/
def Load.waits (l : Load V P Q R) : Bool :=
  match l.left with
  | .waiting _ _ => true
  | .ended _ => false

/-- The load came to its end and threw nothing. -/
def Load.resolved (l : Load V P Q R) : Bool :=
  match l.left with
  | .ended (.ok _) => true
  | _ => false

def World.last (w : World V P S Q R) : Option (Load V P Q R) := w.loads.getLast?

section Steps

variable (c : Component V P S I Q R) (w : World V P S Q R)

/-- A load that was started; it does nothing before it waits. -/
def Component.begin (v : V) (p : P) : Load V P Q R :=
  ⟨p, none, (block access (c.load p).run (v, [])).2⟩

/-- After a block: the component is rendered, and the loads it started begin. -/
def World.after (s : V × List P) : World V P S Q R :=
  { w with vars := s.1, mounted := w.mounted && c.renders s.1,
           loads := w.loads ++ s.2.map (c.begin s.1) }

/-- The load `k` runs a block. -/
def World.runLoad (k : Nat) (p : P) (read : Option Json) (code : Flow V P Q R (Except Error Unit)) :
    World V P S Q R :=
  { w with loads := w.loads.set k ⟨p, read, (block access code (w.vars, [])).2⟩ }.after c
    (block access code (w.vars, [])).1

/-- The write `k` runs a block. -/
def World.runWrite (k : Nat) (s : S) (code : Flow V P Q R (Except Error Unit)) : World V P S Q R :=
  { w with writes := w.writes.set k ⟨s, (block access code (w.vars, [])).2⟩ }.after c
    (block access code (w.vars, [])).1

/-- The button was pressed. -/
def World.send (s : S) : World V P S Q R :=
  { w with writes := w.writes ++ [Write.mk s (block access (c.submit s).run (w.vars, [])).2] }.after c
    (block access (c.submit s).run (w.vars, [])).1

/-- **One step.** -/
def World.step : Action I R → Option (World V P S Q R)
  | .input i => if w.mounted then some (w.after c (c.input i w.vars)) else none
  | .press => if w.mounted then (c.button w.vars).map (w.send c) else none
  | .respond k r =>
    match w.loads[k]? with
    | some ⟨p, read, .waiting (.fetch _) next⟩ => some (w.runLoad c k p read (next r))
    | _ => none
  | .read k r =>
    match w.loads[k]? with
    | some ⟨p, _, .waiting (.json _) next⟩ => some (w.runLoad c k p r.toOption (next r))
    | _ => none
  | .answer k r =>
    match w.writes[k]? with
    | some ⟨s, .waiting (.fetch _) next⟩ => some (w.runWrite c k s (next r))
    | _ => none

/-- **One step, case by case.** -/
inductive Step : Action I R → World V P S Q R → Prop where
  | input (i : I) (hm : w.mounted = true) : Step (.input i) (w.after c (c.input i w.vars))
  | press (s : S) (hm : w.mounted = true) (hs : c.button w.vars = some s) : Step .press (w.send c s)
  | respond (k : Nat) (r : Except Error R) (p : P) (read : Option Json) (req : Q)
      (next : Except Error R → Flow V P Q R (Except Error Unit))
      (hl : w.loads[k]? = some ⟨p, read, .waiting (.fetch req) next⟩) :
      Step (.respond k r) (w.runLoad c k p read (next r))
  | read (k : Nat) (r : Except Error Json) (p : P) (read : Option Json) (res : R)
      (next : Except Error Json → Flow V P Q R (Except Error Unit))
      (hl : w.loads[k]? = some ⟨p, read, .waiting (.json res) next⟩) :
      Step (.read k r) (w.runLoad c k p r.toOption (next r))
  | answer (k : Nat) (r : Except Error R) (s : S) (req : Q)
      (next : Except Error R → Flow V P Q R (Except Error Unit))
      (hx : w.writes[k]? = some ⟨s, .waiting (.fetch req) next⟩) :
      Step (.answer k r) (w.runWrite c k s (next r))

variable {c w}

theorem step_view {a : Action I R} {w' : World V P S Q R} (h : w.step c a = some w') :
    Step c w a w' := by
  unfold World.step at h
  cases a with
  | input i =>
      dsimp only at h
      split at h
      · cases h
        exact .input i ‹_›
      · cases h
  | press =>
      dsimp only at h
      split at h
      · obtain ⟨s, hs, rfl⟩ := Option.map_eq_some_iff.mp h
        exact .press s ‹_› hs
      · cases h
  | respond k r =>
      dsimp only at h
      split at h
      · cases h
        exact .respond k r _ _ _ _ ‹_›
      · cases h
  | read k r =>
      dsimp only at h
      split at h
      · cases h
        exact .read k r _ _ _ _ ‹_›
      · cases h
  | answer k r =>
      dsimp only at h
      split at h
      · cases h
        exact .answer k r _ _ _ ‹_›
      · cases h

end Steps

/-! ## 3. Blocks -/

section Blocks

/-- A load after its response. -/
def fetched (body : Json → Async V P Q R Unit) :
    Except Error R → Flow V P Q R (Except Error Unit)
  | .ok res => (json res >>= body).run
  | .error e => .ret (.error e)

/-- A load after its body. -/
def parsed (body : Json → Async V P Q R Unit) :
    Except Error Json → Flow V P Q R (Except Error Unit)
  | .ok j => (body j).run
  | .error e => .ret (.error e)

/-- A write after its response. -/
def answered (ok : R → Bool) (done : Async V P Q R Unit) :
    Except Error R → Flow V P Q R (Except Error Unit)
  | .ok res => if ok res then done.run else .ret (.ok ())
  | .error e => .ret (.error e)

/-- **Where a load is**, and what it has read. -/
inductive Loading (body : Json → Async V P Q R Unit) : Option Json → Left V P Q R → Prop where
  | fetching (req : Q) : Loading body none (.waiting (.fetch req) (fetched body))
  | reading (res : R) : Loading body none (.waiting (.json res) (parsed body))
  | ended (read : Option Json) (r : Except Error Unit) : Loading body read (.ended r)

/-- **Where a write is.** -/
inductive Writing (ok : R → Bool) (done : Async V P Q R Unit) : Left V P Q R → Prop where
  | sent (req : Q) : Writing ok done (.waiting (.fetch req) (answered ok done))
  | ended (r : Except Error Unit) : Writing ok done (.ended r)

variable {ok : R → Bool} {req : Q} {body : Json → Async V P Q R Unit} {done : Async V P Q R Unit}
  {s : V × List P}

theorem block_load : block access (load req body).run s =
    (s, .waiting (.fetch req) (fetched body)) := by
  have hnext : ∀ r, ExceptT.bindCont (fun res => json res >>= body) r = fetched body r := fun r => by
    cases r <;> rfl
  have hload : (load req body).run = .call (.await (.fetch req)) (fetched body) :=
    congrArg (Prog.call _) (funext hnext)
  rw [hload]
  rfl

theorem block_fetched (r : Except Error R) : block access (fetched body r) s = (s, match r with
    | .ok res => .waiting (.json res) (parsed body)
    | .error e => .ended (.error e)) := by
  cases r with
  | error e => rfl
  | ok res =>
      have hnext : ∀ r, ExceptT.bindCont body r = parsed body r := fun r => by cases r <;> rfl
      have hjson : fetched body (.ok res) = .call (.await (.json res)) (parsed body) :=
        congrArg (Prog.call _) (funext hnext)
      rw [hjson]
      rfl

theorem block_submit : block access (submit ok req done).run s =
    (s, .waiting (.fetch req) (answered ok done)) := by
  have hnext : ∀ r, ExceptT.bindCont (fun res => if ok res then done else pure ()) r =
      answered ok done r := by
    intro r
    cases r with
    | error e => rfl
    | ok res => exact apply_ite ExceptT.run _ _ _
  have hsubmit : (submit ok req done).run = .call (.await (.fetch req)) (answered ok done) :=
    congrArg (Prog.call _) (funext hnext)
  rw [hsubmit]
  rfl

end Blocks

/-! ## 4. What is shown -/

/-- **A component whose loads overwrite what it shows.** -/
structure Overwrites (c : Component V P S I Q R) where
  ok : R → Bool
  request : P → Q
  /-- What a load does with its body. -/
  body : Json → Async V P Q R Unit
  sent : S → Q
  /-- What a write does when it was answered well. -/
  done : S → Async V P Q R Unit
  /-- The parameter there is. -/
  param : V → P
  /-- The parameter of the load that a write starts. -/
  about : S → P
  /-- The component can be rendered with this body. -/
  fits : Json → Bool
  /-- What is shown is this body. -/
  Shows : Json → V → Prop
  load_eq : ∀ p, c.load p = load (request p) body
  submit_eq : ∀ s, c.submit s = submit ok (sent s) (done s)
  overwrites : ∀ j v, ∃ v' r, block access (body j).run (v, []) = ((v', []), .ended r) ∧
    param v' = param v ∧ c.renders v' = fits j ∧ (r = .ok () → Shows j v')
  reloads : ∀ s v, ∃ v' r, block access (done s).run (v, []) = ((v', [about s]), .ended r) ∧
    param v' = param v ∧ c.renders v' = c.renders v
  inputs : ∀ i v, c.renders (c.input i v).1 = c.renders v ∧
    ((c.input i v).2 = [param (c.input i v).1] ∨
      (c.input i v).2 = [] ∧ param (c.input i v).1 = param v ∧
        ∀ j, Shows j v → Shows j (c.input i v).1)

/-- **No body comes too late**, and none that the component cannot be rendered with; and a write that
    is answered well is still about the parameter there is. -/
def timely {c : Component V P S I Q R} [DecidableEq P] (o : Overwrites c) (w : World V P S Q R) :
    Action I R → Bool
  | .read k (.ok j) => o.fits j && (k + 1 == w.loads.length || !w.last.any Load.resolved)
  | .answer k (.ok res) => !o.ok res || w.writes[k]?.all fun x => o.about x.form == o.param w.vars
  | _ => true

section Shown

variable {c : Component V P S I Q R} (o : Overwrites c) (w : World V P S Q R)

/-- **With no load under way**, what is shown is what the last one read, and it was one for the
    parameter there is; if the last one resolved. -/
def Latest : Prop :=
  (∀ l ∈ w.loads, l.waits = false) → ∀ l, w.last = some l → l.resolved = true →
    ∃ j, l.read = some j ∧ w.mounted = true ∧ o.Shows j w.vars ∧ l.param = o.param w.vars

/-- Every flow is where its code stops, and the component is mounted. -/
structure Flows : Prop where
  loads : ∀ l ∈ w.loads, Loading o.body l.read l.left
  writes : ∀ x ∈ w.writes, Writing o.ok (o.done x.form) x.left
  mounted : w.mounted = true

/-- What is shown is what the last load read, if it resolved, with these variables. -/
def LastShown (v : V) : Prop :=
  ∀ l, w.last = some l → l.param = o.param v ∧
    (l.resolved = true → ∃ j, l.read = some j ∧ o.Shows j v)

/-- **What every timely step preserves.** -/
structure Kept : Prop where
  flows : Flows o w
  renders : c.renders w.vars = true
  last : LastShown o w w.vars

end Shown

section Steps

variable {c : Component V P S I Q R} {o : Overwrites c} {w w' : World V P S Q R}

theorem Kept.latest (h : Kept o w) : Latest o w := by
  intro _ l hl hresolved
  obtain ⟨hparam, hshown⟩ := h.last l hl
  obtain ⟨j, hread, hshows⟩ := hshown hresolved
  exact ⟨j, hread, h.flows.mounted, hshows, hparam⟩

theorem Flows.set_load (h : Flows o w) (k : Nat) {l : Load V P Q R}
    (hl : Loading o.body l.read l.left) : Flows o { w with loads := w.loads.set k l } := by
  refine ⟨fun l' hl' => ?_, h.writes, h.mounted⟩
  rcases List.mem_or_eq_of_mem_set hl' with hmem | rfl
  · exact h.loads l' hmem
  · exact hl

theorem Flows.set_write (h : Flows o w) (k : Nat) {x : Write V P S Q R}
    (hx : Writing o.ok (o.done x.form) x.left) : Flows o { w with writes := w.writes.set k x } := by
  refine ⟨h.loads, fun x' hx' => ?_, h.mounted⟩
  rcases List.mem_or_eq_of_mem_set hx' with hmem | rfl
  · exact h.writes x' hmem
  · exact hx

theorem last_of_index {k : Nat} {l : Load V P Q R} (hk : w.loads[k]? = some l)
    (hlast : k + 1 = w.loads.length) : w.last = some l := by
  have hindex : w.loads.length - 1 = k := by omega
  rw [World.last, List.getLast?_eq_getElem?, hindex, hk]

/-- The last load, when the load `k` is another one. -/
theorem last_set (k : Nat) (l : Load V P Q R) (hk : k < w.loads.length) :
    { w with loads := w.loads.set k l }.last = if k + 1 = w.loads.length then some l else w.last := by
  show (w.loads.set k l).getLast? = if k + 1 = w.loads.length then some l else w.loads.getLast?
  rw [List.getLast?_eq_getElem?, List.getLast?_eq_getElem?, List.length_set, List.getElem?_set]
  by_cases hlast : k + 1 = w.loads.length
  · have hindex : k = w.loads.length - 1 := by omega
    rw [if_pos hindex, if_pos hlast, if_pos hk]
  · have hindex : k ≠ w.loads.length - 1 := by omega
    rw [if_neg hindex, if_neg hlast]

/-- A block that starts no load. -/
theorem Flows.after_none (h : Flows o w) {v : V} (hrenders : c.renders v = true)
    (hlast : LastShown o w v) : Kept o (w.after c (v, [])) := by
  have hafter : w.after c (v, []) = { w with vars := v } := by
    rw [World.after, h.mounted, hrenders, List.map_nil, List.append_nil]
    rfl
  rw [hafter]
  exact ⟨⟨h.loads, h.writes, h.mounted⟩, hrenders, hlast⟩

/-- A block that starts a load: it is the last one now. -/
theorem Flows.after_one (h : Flows o w) {v : V} (hrenders : c.renders v = true) :
    Kept o (w.after c (v, [o.param v])) := by
  have hbegin : c.begin v (o.param v) =
      ⟨o.param v, none, .waiting (.fetch (o.request (o.param v))) (fetched o.body)⟩ := by
    rw [Component.begin, o.load_eq, block_load]
  have hafter : w.after c (v, [o.param v]) = { w with
      vars := v, loads := w.loads ++
        [⟨o.param v, none, .waiting (.fetch (o.request (o.param v))) (fetched o.body)⟩] } := by
    rw [World.after, h.mounted, hrenders, List.map_singleton, hbegin]
    rfl
  rw [hafter]
  refine ⟨⟨fun l hl => ?_, h.writes, h.mounted⟩, hrenders, fun l hl => ?_⟩
  · rcases List.mem_append.mp hl with hmem | hmem
    · exact h.loads l hmem
    · rw [List.mem_singleton.mp hmem]
      exact .fetching _
  · have heq := List.getLast?_concat.symm.trans hl
    cases heq
    exact ⟨rfl, nofun⟩

/-- A load that waits on, or that threw; nothing was written. -/
theorem Kept.set_load (h : Kept o w) {k : Nat} {l l' : Load V P Q R} (hk : w.loads[k]? = some l)
    (hparam : l'.param = l.param) (hresolved : l'.resolved = false)
    (hl' : Loading o.body l'.read l'.left) :
    Kept o ({ w with loads := w.loads.set k l' }.after c (w.vars, [])) := by
  obtain ⟨hlt, hget⟩ := List.getElem?_eq_some_iff.mp hk
  refine (h.flows.set_load k hl').after_none h.renders fun m hm => ?_
  rw [last_set k l' hlt] at hm
  by_cases hlast : k + 1 = w.loads.length
  · rw [if_pos hlast] at hm
    cases hm
    refine ⟨hparam.trans (h.last l (last_of_index hk hlast)).1, fun htrue => ?_⟩
    rw [hresolved] at htrue
    cases htrue
  · rw [if_neg hlast] at hm
    exact h.last m hm

/-- A load that has read its body. -/
theorem Kept.read_load (h : Kept o w) {k : Nat} {l : Load V P Q R} (hk : w.loads[k]? = some l)
    {j : Json} (hfits : o.fits j = true)
    (htimely : k + 1 = w.loads.length ∨ w.last.any Load.resolved = false) :
    Kept o (w.runLoad c k l.param (some j) (o.body j).run) := by
  obtain ⟨v, r, hblock, hparam, hrenders, hshows⟩ := o.overwrites j w.vars
  obtain ⟨hlt, hget⟩ := List.getElem?_eq_some_iff.mp hk
  have hflows : Flows o { w with loads := w.loads.set k ⟨l.param, some j, .ended r⟩ } :=
    h.flows.set_load k (.ended _ r)
  rw [World.runLoad, hblock]
  refine hflows.after_none (hrenders.trans hfits) fun m hm => ?_
  rw [last_set k _ hlt] at hm
  by_cases hlast : k + 1 = w.loads.length
  · rw [if_pos hlast] at hm
    cases hm
    have hlparam := (h.last l (last_of_index hk hlast)).1
    refine ⟨hlparam.trans hparam.symm, fun hresolved => ⟨j, rfl, ?_⟩⟩
    -- it resolved, so it threw nothing after it wrote
    cases r with
    | ok _ => exact hshows rfl
    | error e => cases hresolved
  · rw [if_neg hlast] at hm
    have hnone := htimely.resolve_left hlast
    rw [hm] at hnone
    refine ⟨(h.last m hm).1.trans hparam.symm, fun hresolved => ?_⟩
    rw [Option.any_some, hresolved] at hnone
    cases hnone

theorem Kept.input (h : Kept o w) (i : I) : Kept o (w.after c (c.input i w.vars)) := by
  obtain ⟨hrenders, hinput⟩ := o.inputs i w.vars
  rcases hinput with hone | ⟨hnone, hparam, hshows⟩
  · have hkept := h.flows.after_one (hrenders.trans h.renders)
    rwa [← hone] at hkept
  · have hlast : LastShown o w (c.input i w.vars).1 := fun l hl => by
      obtain ⟨hl, hshown⟩ := h.last l hl
      refine ⟨hl.trans hparam.symm, fun hresolved => ?_⟩
      obtain ⟨j, hread, hj⟩ := hshown hresolved
      exact ⟨j, hread, hshows j hj⟩
    have hkept := h.flows.after_none (hrenders.trans h.renders) hlast
    rwa [← hnone] at hkept

/-- A write that is sent. -/
theorem Kept.send (h : Kept o w) (s : S) : Kept o (w.send c s) := by
  have hflows : Flows o { w with
      writes := w.writes ++
        [⟨s, .waiting (.fetch (o.sent s)) (answered o.ok (o.done s))⟩] } := by
    refine ⟨h.flows.loads, fun x hx => ?_, h.flows.mounted⟩
    rcases List.mem_append.mp hx with hmem | hmem
    · exact h.flows.writes x hmem
    · rw [List.mem_singleton.mp hmem]
      exact .sent _
  rw [World.send, o.submit_eq, block_submit]
  exact hflows.after_none h.renders h.last

/-- A write that was answered; well only while it is about the parameter there is. -/
theorem Kept.answer (h : Kept o w) (k : Nat) {s : S} {r : Except Error R}
    (habout : ∀ res, r = .ok res → o.ok res = true → o.about s = o.param w.vars) :
    Kept o (w.runWrite c k s (answered o.ok (o.done s) r)) := by
  have hended : ∀ r, Flows o { w with writes := w.writes.set k ⟨s, .ended r⟩ } :=
    fun r => h.flows.set_write k (.ended r)
  cases r with
  | error e => exact (hended _).after_none h.renders h.last
  | ok res =>
      by_cases hok : o.ok res = true
      · obtain ⟨v, r, hblock, hparam, hrenders⟩ := o.reloads s w.vars
        have hkept := (hended r).after_one (hrenders.trans h.renders)
        rw [hparam, ← habout res rfl hok] at hkept
        rw [World.runWrite, answered, if_pos hok, hblock]
        exact hkept
      · rw [World.runWrite, answered, if_neg hok]
        exact (hended _).after_none h.renders h.last

variable [DecidableEq P]

/-- **One timely step.** -/
theorem step_kept {a : Action I R} (h : Kept o w) (htimely : timely o w a = true)
    (hs : w.step c a = some w') : Kept o w' := by
  cases step_view hs with
  | input i hm => exact h.input i
  | press s hm hs => exact h.send s
  | respond k r p read req next hl =>
      have hstage := h.flows.loads _ (List.mem_of_getElem? hl)
      cases hstage with
      | fetching =>
          rw [World.runLoad, block_fetched]
          cases r with
          | error e => exact h.set_load hl rfl rfl (.ended _ _)
          | ok res => exact h.set_load hl rfl rfl (.reading _)
  | read k r p read res next hl =>
      have hstage := h.flows.loads _ (List.mem_of_getElem? hl)
      cases hstage with
      | reading =>
          cases r with
          | error e => exact h.set_load hl rfl rfl (.ended _ _)
          | ok j =>
              simp only [timely, Bool.and_eq_true, Bool.or_eq_true, beq_iff_eq,
                Bool.not_eq_true'] at htimely
              exact h.read_load hl htimely.1 htimely.2
  | answer k r s req next hx =>
      have hstage : Writing o.ok (o.done s) (.waiting (.fetch req) next) :=
        h.flows.writes _ (List.mem_of_getElem? hx)
      cases hstage with
      | sent =>
          refine h.answer k fun res hr hok => ?_
          subst hr
          simpa only [timely, hok, hx, Option.all_some, Bool.not_true, Bool.false_or,
            beq_iff_eq] using htimely

/-- **In every run of timely steps** what is shown is what the last load read. -/
theorem run_latest {v : V} (hrenders : c.renders v = true)
    (h : Run (World.step c) (fun w a => timely o w a = true) (World.init v) w) : Latest o w := by
  have h₀ : Kept o (World.init v) :=
    ⟨⟨fun _ hl => absurd hl List.not_mem_nil, fun _ hx => absurd hx List.not_mem_nil, rfl⟩,
      hrenders, fun _ hl => by cases hl⟩
  have hkept : Kept o w := h.invariant h₀ fun _ ih htimely hs => step_kept ih htimely hs
  exact hkept.latest

end Steps

end Components
