/-
  File:      BlogDemo/Lib/Terraform.lean
  Subject:   PLANS AND HOW THEY ARE APPLIED, as Terraform does: resources against what a state
             records of them, and the calls that the application of a plan makes.

  * `Cloud` -- the objects there are: named ones, parts of them, and others that are given an id;
  * `plan` -- what is to be done for a configuration over a state; `plan_nil` -- without a state
    everything is to be created;
  * `applyPlan` -- action after action; what depends on something that was not made is left out;
    `applied_all` -- what it has called when it succeeds;
  * `Unshared` -- every object that was answered for is new, is as it was asked for, and was
    answered for once; **`unshared_create`** -- a creation keeps it if its object is new.
-/
import BlogDemo.Lib.Interleave
import Mathlib.Data.List.Nodup

namespace Terraform

open Atomic

/-! ## 1. Objects -/

/-- Where a resource is to be: an object under a name, a part of the object with that name, or an
    object that is given its id when it is made. -/
inductive Slot (N K : Type) where
  | object (name : N)
  | part (name : N) (kind : K)
  | unnamed
  deriving DecidableEq

inductive Id (N K : Type) where
  | object (name : N)
  | part (name : N) (kind : K)
  | unnamed (n : Nat)
  deriving DecidableEq

/-- The objects of that slot. -/
def Slot.fits {N K : Type} : Slot N K → Id N K → Prop
  | .object n, id => id = .object n
  | .part n k, id => id = .part n k
  | .unnamed, id => ∃ m, id = .unnamed m

/-- A part is of its own slot only. -/
theorem Slot.eq_part {N K : Type} {slot : Slot N K} {n : N} {k : K} (h : slot.fits (.part n k)) :
    slot = .part n k := by
  cases slot with
  | object m => cases h
  | part m l =>
      cases h
      rfl
  | unnamed =>
      obtain ⟨m, hm⟩ := h
      cases hm

def Slot.isPart {N K : Type} : Slot N K → Bool
  | .part _ _ => true
  | _ => false

/-- The objects there are. A part is one of an object that is there, and the ids from `next` on have
    not been given. -/
structure Cloud (N K V : Type) where
  objects : Id N K → Option V
  next : Nat
  parts : ∀ n k, objects (.object n) = none → objects (.part n k) = none
  unused : ∀ m, next ≤ m → objects (.unnamed m) = none

inductive Refusal where
  | alreadyExists
  | notFound
  | failed (code : String)
  deriving DecidableEq

inductive Request (N K V : Type) where
  | create (slot : Slot N K) (args : V)
  | update (id : Id N K) (args : V)
  | delete (id : Id N K)

abbrev Request.Out {N K V : Type} : Request N K V → Type
  | .create _ _ => Id N K
  | .update _ _ => Unit
  | .delete _ => Unit

abbrev Answer {N K V : Type} (q : Request N K V) : Type := Except Refusal q.Out

section Objects

variable {N K V : Type} [DecidableEq N] [DecidableEq K]

def Cloud.empty : Cloud N K V where
  objects _ := none
  next := 0
  parts _ _ _ := rfl
  unused _ _ := rfl

/-- What a part is a part of is there. -/
def Cloud.Bears (c : Cloud N K V) : Id N K → Prop
  | .part n _ => c.objects (.object n) ≠ none
  | _ => True

def nextAfter (next : Nat) : Id N K → Nat
  | .unnamed m => max next (m + 1)
  | _ => next

omit [DecidableEq N] [DecidableEq K] in
theorem le_nextAfter (next : Nat) (id : Id N K) : next ≤ nextAfter next id := by
  cases id with
  | object n => exact Nat.le_refl _
  | part n k => exact Nat.le_refl _
  | unnamed m => exact Nat.le_max_left _ _

def Cloud.put (c : Cloud N K V) (id : Id N K) (args : V) (hid : c.Bears id) : Cloud N K V where
  objects := Function.update c.objects id (some args)
  next := nextAfter c.next id
  parts n k hn := by
    have hne : Id.object n ≠ id := by
      rintro rfl
      rw [Function.update_self] at hn
      cases hn
    rw [Function.update_of_ne hne] at hn
    have hne' : Id.part n k ≠ id := by
      rintro rfl
      exact hid hn
    rw [Function.update_of_ne hne']
    exact c.parts n k hn
  unused m hm := by
    have hne : Id.unnamed m ≠ id := by
      rintro rfl
      have hle : m + 1 ≤ m := Nat.le_trans (Nat.le_max_right c.next (m + 1)) hm
      omega
    rw [Function.update_of_ne hne]
    exact c.unused m (Nat.le_trans (le_nextAfter c.next id) hm)

/-- With an object go its parts. -/
def Cloud.remove (c : Cloud N K V) (id : Id N K) : Cloud N K V where
  objects id' := match id, id' with
    | .object n, .part n' k => if n' = n then none else c.objects (.part n' k)
    | id, id' => if id' = id then none else c.objects id'
  next := c.next
  parts n k hn := by
    cases id with
    | object m =>
        by_cases h : n = m
        · simp [h]
        · have hn' : c.objects (.object n) = none := by simpa [h] using hn
          simp [h, c.parts n k hn']
    | part m k' =>
        have hn' : c.objects (.object n) = none := by simpa using hn
        simp [c.parts n k hn']
    | unnamed m =>
        have hn' : c.objects (.object n) = none := by simpa using hn
        simp [c.parts n k hn']
  unused m hm := by
    cases id <;> simp [c.unused m hm]

omit [DecidableEq N] [DecidableEq K] in
theorem Cloud.bears (c : Cloud N K V) {id : Id N K} (h : c.objects id ≠ none) : c.Bears id := by
  cases id with
  | object n => trivial
  | part n k => exact fun hn => h (c.parts n k hn)
  | unnamed m => trivial

def Cloud.exec : Apply (Request N K V) Answer (Cloud N K V)
  | .create (.object n) args, c =>
    if c.objects (.object n) = none then (.ok (.object n), c.put (.object n) args trivial)
    else (.error .alreadyExists, c)
  | .create (.part n k) args, c =>
    if h : c.objects (.object n) = none then (.error .notFound, c)
    else (.ok (.part n k), c.put (.part n k) args h)
  | .create .unnamed args, c => (.ok (.unnamed c.next), c.put (.unnamed c.next) args trivial)
  | .update id args, c =>
    if h : c.objects id = none then (.error .notFound, c) else (.ok (), c.put id args (c.bears h))
  | .delete id, c => if c.objects id = none then (.error .notFound, c) else (.ok (), c.remove id)

/-- A part that is there is put anew. -/
def Cloud.Free (c : Cloud N K V) : Slot N K → Prop
  | .part n k => c.objects (.part n k) = none
  | _ => True

/-- **What a creation does**: it is refused, or makes an object that is new and fits. -/
theorem exec_create (c : Cloud N K V) {slot : Slot N K} (args : V) (hfree : c.Free slot) :
    (∃ e, Cloud.exec (.create slot args) c = (.error e, c)) ∨
    ∃ id hid, slot.fits id ∧ c.objects id = none ∧
      Cloud.exec (.create slot args) c = (.ok id, c.put id args hid) := by
  cases slot with
  | object n =>
      by_cases h : c.objects (.object n) = none
      · exact Or.inr ⟨.object n, trivial, rfl, h, if_pos h⟩
      · exact Or.inl ⟨.alreadyExists, if_neg h⟩
  | part n k =>
      by_cases h : c.objects (.object n) = none
      · exact Or.inl ⟨.notFound, dif_pos h⟩
      · exact Or.inr ⟨.part n k, h, rfl, hfree, dif_neg h⟩
  | unnamed =>
      have hnew := c.unused c.next (Nat.le_refl _)
      exact Or.inr ⟨.unnamed c.next, trivial, ⟨c.next, rfl⟩, hnew, rfl⟩

end Objects

/-! ## 2. Plans -/

structure Resource (A N K V : Type) where
  addr : A
  dependsOn : List A
  slot : Slot N K
  args : V

/-- What a state records of a resource. -/
structure Entry (A N K V : Type) where
  addr : A
  id : Id N K
  args : V
  deriving DecidableEq

abbrev State (A N K V : Type) := List (Entry A N K V)

inductive Action (A N K V : Type) where
  | create (r : Resource A N K V)
  | update (r : Resource A N K V) (id : Id N K)
  | delete (addr : A) (id : Id N K)

/-- A configuration: every resource has an address of its own. -/
structure Config (A N K V : Type) where
  resources : List (Resource A N K V)
  addrs : (resources.map (·.addr)).Nodup

/-- **Parts are of the configuration's own objects**: each is declared once, and refers to the
    resource of its object. A part may also name its object by a literal, of whoever it is. -/
structure Config.SelfContained {A N K V : Type} (cfg : Config A N K V) : Prop where
  parts : ((cfg.resources.map (·.slot)).filter Slot.isPart).Nodup
  refers : ∀ r ∈ cfg.resources, ∀ n k, r.slot = .part n k →
    ∃ o ∈ cfg.resources, o.addr ∈ r.dependsOn ∧ o.slot = .object n

section Plans

variable {A N K V : Type} [DecidableEq A] [DecidableEq N] [DecidableEq K] [DecidableEq V]

/-- The object is where the resource is to be. -/
def Slot.holds : Slot N K → Id N K → Bool
  | .object n, .object m => n = m
  | .part n k, .part m l => n = m && k = l
  | .unnamed, .unnamed _ => true
  | _, _ => false

def Resource.actions (st : State A N K V) (r : Resource A N K V) : List (Action A N K V) :=
  match st.find? (·.addr = r.addr) with
  | none => [.create r]
  | some e =>
    if r.slot.holds e.id then (if e.args = r.args then [] else [.update r e.id])
    else [.delete r.addr e.id, .create r]

/-- `terraform plan`. -/
def plan (resources : List (Resource A N K V)) (st : State A N K V) : List (Action A N K V) :=
  (st.filter fun e => !resources.any (·.addr = e.addr)).map (fun e => .delete e.addr e.id) ++
    resources.flatMap (·.actions st)

/-- **Without a state everything is to be created.** -/
theorem plan_nil (resources : List (Resource A N K V)) :
    plan resources [] = resources.map .create := by
  simp only [plan, List.filter_nil, List.map_nil, List.nil_append]
  induction resources with
  | nil => rfl
  | cons r rest ih => rw [List.flatMap_cons, ih]; rfl

end Plans

/-! ## 3. Applying a plan -/

/-- The calls of an application, and those of what runs it. -/
inductive Op (N K V H : Type) where
  | cloud (q : Request N K V)
  | host (h : H)

abbrev Op.Res {N K V H : Type} (R : H → Type) : Op N K V H → Type
  | .cloud q => Answer q
  | .host h => R h

section Application

variable {A N K V H α : Type} {R : H → Type} [DecidableEq A]

/-- What the resource depends on is there, and nothing of it has failed. -/
def Resource.ready (r : Resource A N K V) (st : State A N K V) (failed : List A) : Bool :=
  r.dependsOn.all fun a => st.any (·.addr = a) && !failed.contains a

/-- `terraform apply` of a plan, in the order of its actions: from the state, and the addresses that
    have failed or were left out. -/
def applyPlan (finish : State A N K V → List A → α) :
    List (Action A N K V) → State A N K V → List A → Prog (Op N K V H) (Op.Res R) α
  | [], st, failed => .ret (finish st failed)
  | .create r :: rest, st, failed =>
    if r.ready st failed then
      .call (.cloud (.create r.slot r.args)) fun answer => match answer with
        | .ok id => applyPlan finish rest (⟨r.addr, id, r.args⟩ :: st) failed
        | .error _ => applyPlan finish rest st (r.addr :: failed)
    else applyPlan finish rest st (r.addr :: failed)
  | .update r id :: rest, st, failed =>
    if r.ready st failed then
      .call (.cloud (.update id r.args)) fun answer => match answer with
        | .ok _ => applyPlan finish rest
            (st.map fun e => if e.addr = r.addr then { e with args := r.args } else e) failed
        | .error _ => applyPlan finish rest st (r.addr :: failed)
    else applyPlan finish rest st (r.addr :: failed)
  | .delete addr id :: rest, st, failed =>
    .call (.cloud (.delete id)) fun answer => match answer with
      | .ok _ => applyPlan finish rest (st.filter fun e => e.addr ≠ addr) failed
      | .error _ => applyPlan finish rest st (addr :: failed)

/-- **An application of creations that succeeds** has had each of them answered. -/
theorem applied_all {finish : State A N K V → List A → α} {a : α}
    (hfinish : ∀ st failed, finish st failed = a → failed = []) {actions : List (Action A N K V)}
    (hcreate : ∀ x ∈ actions, ∃ r, x = .create r) {st : State A N K V} {failed : List A}
    {es : List (Made (Op N K V H) (Op.Res R))}
    (h : (applyPlan finish actions st failed).Trace es (.ret a)) :
    failed = [] ∧ ∀ r, .create r ∈ actions →
      ∃ id, (⟨.cloud (.create r.slot r.args), .ok id⟩ : Made (Op N K V H) (Op.Res R)) ∈ es := by
  induction actions generalizing st failed es with
  | nil =>
      rw [applyPlan] at h
      cases h with
      | start => exact ⟨hfinish _ _ rfl, fun r hr => absurd hr List.not_mem_nil⟩
  | cons x rest ih =>
      obtain ⟨r, rfl⟩ := hcreate _ List.mem_cons_self
      have hrest := fun y hy => hcreate y (List.mem_cons_of_mem _ hy)
      rw [applyPlan] at h
      split at h
      · obtain ⟨answer, es', rfl, hnext⟩ := h.of_call ⟨a, rfl⟩
        cases answer with
        | error e => exact absurd (ih hrest hnext).1 (List.cons_ne_nil _ _)
        | ok id =>
            obtain ⟨hfailed, hcalls⟩ := ih hrest hnext
            refine ⟨hfailed, fun r' hr' => ?_⟩
            rcases List.mem_cons.mp hr' with hr' | hr'
            · cases hr'
              exact ⟨id, List.mem_cons_self⟩
            · obtain ⟨id', hid'⟩ := hcalls r' hr'
              exact ⟨id', List.mem_cons_of_mem _ hid'⟩
      · exact absurd (ih hrest h).1 (List.cons_ne_nil _ _)

end Application

/-! ## 4. Applications side by side -/

section SideBySide

variable {A N K V H W ι α : Type} {R : H → Type}

/-- What a creation did, by its answer. -/
structure Creates (slot : Slot N K) (args : V) (c c' : Cloud N K V)
    (r : Except Refusal (Id N K)) : Prop where
  frame : ∀ id, ¬ slot.fits id → c'.objects id = c.objects id
  kept : ∀ id v, c.objects id = some v → c'.objects id = some v
  answer : ∀ id, r = .ok id → slot.fits id ∧ c.objects id = none ∧ c'.objects id = some args

theorem creates_same {slot : Slot N K} {args : V} (c : Cloud N K V) (e : Refusal) :
    Creates slot args c c (.error e) :=
  ⟨fun _ _ => rfl, fun _ _ h => h, fun id h => by cases h⟩

section Calls

variable [DecidableEq N] [DecidableEq K]

def exec (f : Apply H R W) : Apply (Op N K V H) (Op.Res R) (Cloud N K V × W)
  | .cloud q, s => ((Cloud.exec q s.1).1, ((Cloud.exec q s.1).2, s.2))
  | .host h, s => ((f h s.2).1, (s.1, (f h s.2).2))

/-- A request may be refused for other reasons, and an answer may be lost. -/
def fault (hostFault : (h : H) → R h → Prop) : (op : Op N K V H) → Op.Res R op → Prop
  | .cloud _, r => ∃ e, r = .error e
  | .host h, r => hostFault h r

abbrev effect (f : Apply H R W) (hostFault : (h : H) → R h → Prop) :
    Effect (Op N K V H) (Op.Res R) (Cloud N K V × W) := Faulty (exec f) (fault hostFault)

variable {f : Apply H R W} {hostFault : (h : H) → R h → Prop}

theorem creates_put {slot : Slot N K} {args : V} {c : Cloud N K V} {id : Id N K}
    (hid : c.Bears id) (hfits : slot.fits id) (hnew : c.objects id = none)
    {r : Except Refusal (Id N K)} (hr : ∀ id', r = .ok id' → id' = id) :
    Creates slot args c (c.put id args hid) r where
  frame id' h := by
    have hne : id' ≠ id := by
      rintro rfl
      exact h hfits
    exact Function.update_of_ne hne _ _
  kept id' v h := by
    have hne : id' ≠ id := by
      rintro rfl
      rw [hnew] at h
      cases h
    exact (Function.update_of_ne hne _ _).trans h
  answer id' h := by
    obtain rfl := hr id' h
    exact ⟨hfits, hnew, Function.update_self _ _ _⟩

/-- **A creation on a slot that is free**, whatever is answered. -/
theorem effect_create {slot : Slot N K} {args : V} {s s' : Cloud N K V × W} {r}
    (he : effect f hostFault (.cloud (.create slot args)) s r s') (hfree : s.1.Free slot) :
    Creates slot args s.1 s'.1 r ∧ s'.2 = s.2 := by
  have hexec := exec_create s.1 args hfree
  cases he with
  | done =>
      rcases hexec with ⟨e, he⟩ | ⟨id, hid, hfits, hnew, he⟩
      · simp only [exec, he]
        exact ⟨creates_same _ _, trivial⟩
      · simp only [exec, he]
        exact ⟨creates_put hid hfits hnew fun _ h => (Except.ok.inj h).symm, trivial⟩
  | refused r hr =>
      obtain ⟨e, rfl⟩ := hr
      exact ⟨creates_same _ _, rfl⟩
  | lost r hr =>
      obtain ⟨e, rfl⟩ := hr
      rcases hexec with ⟨e', he⟩ | ⟨id, hid, hfits, hnew, he⟩
      · simp only [exec, he]
        exact ⟨creates_same _ _, trivial⟩
      · simp only [exec, he]
        exact ⟨creates_put hid hfits hnew fun _ h => (nomatch h), trivial⟩

end Calls

/-- The application `i` was answered that it had made the object. -/
def Created (i : ι) (slot : Slot N K) (args : V) (id : Id N K)
    (h : List (Call ι (Op N K V H) (Op.Res R))) : Prop :=
  (⟨i, .cloud (.create slot args), .ok id⟩ : Call ι (Op N K V H) (Op.Res R)) ∈ h

/-- **Nothing is shared**: what was there is as it was; what was answered for is new, is as it was
    asked for, and was answered for once. -/
structure Unshared (c₀ c : Cloud N K V) (h : List (Call ι (Op N K V H) (Op.Res R))) : Prop where
  kept : ∀ id v, c₀.objects id = some v → c.objects id = some v
  made : ∀ i slot args id, Created i slot args id h →
    slot.fits id ∧ c₀.objects id = none ∧ c.objects id = some args
  once : ∀ i j slot slot' args args' id, Created i slot args id h → Created j slot' args' id h →
    i = j

/-- A step of `i` changes nothing that is there, and puts parts to objects of its own only. -/
structure Leaves (i : ι) (c : Cloud N K V) (h : List (Call ι (Op N K V H) (Op.Res R)))
    (c' : Cloud N K V) : Prop where
  kept : ∀ id v, c.objects id = some v → c'.objects id = some v
  parts : ∀ n k, c.objects (.part n k) = none → c'.objects (.part n k) ≠ none →
    ∃ args, Created i (.object n) args (.object n) h

variable {c₀ c c' : Cloud N K V} {h : List (Call ι (Op N K V H) (Op.Res R))} {i j : ι}

theorem leaves_same : Leaves i c h c := ⟨fun _ _ h => h, fun _ _ h h' => absurd h h'⟩

theorem Created.grows {slot : Slot N K} {args : V} {id : Id N K} (hc : Created i slot args id h)
    (e : Call ι (Op N K V H) (Op.Res R)) : Created i slot args id (h ++ [e]) :=
  List.mem_append_left _ hc

/-- What was created, before or just now. -/
theorem created_append {e : Call ι (Op N K V H) (Op.Res R)} {slot : Slot N K} {args : V}
    {id : Id N K} (hc : Created i slot args id (h ++ [e])) :
    Created i slot args id h ∨ e = ⟨i, .cloud (.create slot args), .ok id⟩ := by
  rcases List.mem_append.mp hc with hc | hc
  · exact Or.inl hc
  · exact Or.inr (List.mem_singleton.mp hc).symm

/-- A call of the runner. -/
theorem unshared_host (hU : Unshared c₀ c h) (x : H) (r : R x) :
    Unshared c₀ c (h ++ [⟨i, .host x, r⟩]) := by
  have hold : ∀ {j slot args id}, Created j slot args id (h ++ [⟨i, .host x, r⟩]) →
      Created j slot args id h := by
    intro j slot args id hc
    rcases created_append hc with hc | hc
    · exact hc
    · cases hc
  exact ⟨hU.kept, fun j slot args id hc => hU.made j slot args id (hold hc),
    fun j j' slot slot' args args' id hc hc' =>
      hU.once j j' slot slot' args args' id (hold hc) (hold hc')⟩

/-- **A creation** by the one that has what its object is a part of. -/
theorem unshared_create {slot : Slot N K} {args : V} {r : Except Refusal (Id N K)}
    (hU : Unshared c₀ c h) (hc : Creates slot args c c' r)
    (hown : ∀ n k, slot = .part n k → ∃ args, Created i (.object n) args (.object n) h) :
    Leaves i c h c' ∧ Unshared c₀ c' (h ++ [⟨i, .cloud (.create slot args), r⟩]) := by
  refine ⟨⟨hc.kept, fun n k hnone hsome => ?_⟩, ⟨fun id v hv => hc.kept id v (hU.kept id v hv),
    fun j slot' args' id hj => ?_, fun j j' slot₁ slot₂ args₁ args₂ id hj hj' => ?_⟩⟩
  · by_cases hfits : slot.fits (.part n k)
    · exact hown n k (Slot.eq_part hfits)
    · rw [hc.frame _ hfits] at hsome
      exact absurd hnone hsome
  · rcases created_append hj with hj | hj
    · obtain ⟨hfits, hnone, hsome⟩ := hU.made j slot' args' id hj
      exact ⟨hfits, hnone, hc.kept _ _ hsome⟩
    · cases hj
      obtain ⟨hfits, hnew, hsome⟩ := hc.answer id rfl
      refine ⟨hfits, ?_, hsome⟩
      cases hold : c₀.objects id with
      | none => rfl
      | some v => exact absurd ((hU.kept id v hold).symm.trans hnew) (fun h => nomatch h)
  · -- the object of the new answer was not there, so it was not answered for before
    have hne : ∀ {k slot₃ args₃}, Created k slot₃ args₃ id h → r ≠ .ok id := by
      intro k slot₃ args₃ hk hr
      have hthere := (hU.made k slot₃ args₃ id hk).2.2
      rw [(hc.answer id hr).2.1] at hthere
      cases hthere
    rcases created_append hj with hold | hnew <;> rcases created_append hj' with hold' | hnew'
    · exact hU.once j j' slot₁ slot₂ args₁ args₂ id hold hold'
    · cases hnew'
      exact absurd rfl (hne hold)
    · cases hnew
      exact absurd rfl (hne hold')
    · cases hnew
      cases hnew'
      rfl

/-- **The specification**, with what is known of the rest of the store. -/
def unshared (c₀ : Cloud N K V) (J : W → Prop) :
    Spec ι (Op N K V H) (Op.Res R) (Cloud N K V × W) where
  inv s h := Unshared c₀ s.1 h ∧ J s.2
  guar i s h _ _ s' := Leaves i s.1 h s'.1

/-- What an application knows: its state is of resources it has made, and of the objects it has made
    the parts there are have been dealt with. -/
structure Applying (cfg : Config A N K V) (i : ι) (st : State A N K V) (dealt : List (Slot N K))
    (c : Cloud N K V) (h : List (Call ι (Op N K V H) (Op.Res R))) : Prop where
  made : ∀ e ∈ st, ∃ r ∈ cfg.resources, r.addr = e.addr ∧ Created i r.slot r.args e.id h
  parts : ∀ n k args, Created i (.object n) args (.object n) h → c.objects (.part n k) ≠ none →
    .part n k ∈ dealt

variable {cfg : Config A N K V} {st : State A N K V} {dealt : List (Slot N K)} {J : W → Prop}

theorem stable_applying : Stable (unshared c₀ J) i fun s
    (h : List (Call ι (Op N K V H) (Op.Res R))) => Applying cfg i st dealt s.1 h := by
  intro j hj s h op r s' hinv hguar hk
  refine ⟨fun e he => ?_, fun n k args hc hsome => ?_⟩
  · obtain ⟨x, hx, haddr, hcreated⟩ := hk.made e he
    exact ⟨x, hx, haddr, hcreated.grows _⟩
  · rcases created_append hc with hc | hc
    · by_cases hnone : s.1.objects (.part n k) = none
      · -- only the one that made the object puts a part to it
        obtain ⟨args', hc'⟩ := hguar.parts n k hnone hsome
        exact absurd (hinv.1.once _ _ _ _ _ _ _ hc' hc) hj
      · exact hk.parts n k args hc hnone
    · cases hc
      exact absurd rfl hj

/-- After a creation its slot has been dealt with. -/
theorem Applying.create (hk : Applying cfg i st dealt c h) {slot : Slot N K} {args : V}
    {r : Except Refusal (Id N K)} (hc : Creates slot args c c' r) :
    Applying cfg i st (dealt ++ [slot]) c' (h ++ [⟨i, .cloud (.create slot args), r⟩]) := by
  refine ⟨fun e he => ?_, fun n k args' hcreated hsome => ?_⟩
  · obtain ⟨x, hx, haddr, hcreated⟩ := hk.made e he
    exact ⟨x, hx, haddr, hcreated.grows _⟩
  · by_cases hfits : slot.fits (.part n k)
    · obtain rfl := Slot.eq_part hfits
      exact List.mem_append_right _ (List.mem_singleton.mpr rfl)
    · rw [hc.frame _ hfits] at hsome
      rcases created_append hcreated with hcreated | hcreated
      · exact List.mem_append_left _ (hk.parts n k args' hcreated hsome)
      · -- an object that has just been made had no parts
        cases hcreated
        exact absurd (c.parts n k (hc.answer _ rfl).2.1) hsome

/-- A call of the runner changes nothing of it. -/
theorem Applying.host (hk : Applying cfg i st dealt c h) (x : H) (r : R x) :
    Applying cfg i st dealt c (h ++ [⟨i, .host x, r⟩]) := by
  refine ⟨fun e he => ?_, fun n k args hcreated hsome => ?_⟩
  · obtain ⟨o, ho, haddr, hcreated⟩ := hk.made e he
    exact ⟨o, ho, haddr, hcreated.grows _⟩
  · rcases created_append hcreated with hcreated | hcreated
    · exact hk.parts n k args hcreated hsome
    · cases hcreated

/-- An application that has not begun. -/
theorem applying_nil (hk : ∀ e ∈ h, e.who ≠ i) : Applying cfg i [] [] c h :=
  ⟨fun _ he => absurd he List.not_mem_nil, fun _ _ _ hc _ => absurd rfl (hk _ hc)⟩

theorem unshared_start (c : Cloud N K V) :
    Unshared c c ([] : List (Call ι (Op N K V H) (Op.Res R))) :=
  ⟨fun _ _ h => h, fun _ _ _ _ hc => absurd hc List.not_mem_nil,
    fun _ _ _ _ _ _ _ hc => absurd hc List.not_mem_nil⟩

theorem Applying.entry (hk : Applying cfg i st dealt c h) {r : Resource A N K V}
    (hr : r ∈ cfg.resources) {id : Id N K} (hcreated : Created i r.slot r.args id h) :
    Applying cfg i (⟨r.addr, id, r.args⟩ :: st) dealt c h := by
  refine ⟨fun e he => ?_, hk.parts⟩
  rcases List.mem_cons.mp he with rfl | he
  · exact ⟨r, hr, rfl, hcreated⟩
  · exact hk.made e he

section Walk

variable [DecidableEq A]

/-- What a part refers to has been made by the same application. -/
theorem Applying.owner (hcfg : cfg.SelfContained) (hk : Applying cfg i st dealt c h)
    (hU : Unshared c₀ c h) {r : Resource A N K V} (hr : r ∈ cfg.resources) {failed : List A}
    (hready : r.ready st failed = true) {n : N} {k : K} (hslot : r.slot = .part n k) :
    ∃ args, Created i (.object n) args (.object n) h := by
  obtain ⟨o, ho, hdep, hobject⟩ := hcfg.refers r hr n k hslot
  have hthere := List.all_eq_true.mp hready o.addr hdep
  rw [Bool.and_eq_true] at hthere
  obtain ⟨e, he, haddr⟩ := List.any_eq_true.mp hthere.1
  obtain ⟨r', hr', haddr', hcreated⟩ := hk.made e he
  obtain rfl : r' = o :=
    List.inj_on_of_nodup_map cfg.addrs hr' ho (haddr'.trans (of_decide_eq_true haddr))
  rw [hobject] at hcreated
  have hid : e.id = .object n := (hU.made _ _ _ _ hcreated).1
  rw [hid] at hcreated
  exact ⟨r'.args, hcreated⟩

/-- The slots of what is to be created. -/
def slots (actions : List (Action A N K V)) : List (Slot N K) :=
  actions.filterMap fun x => match x with
    | .create r => some r.slot
    | _ => none

omit [DecidableEq A] in
theorem slots_map_create (resources : List (Resource A N K V)) :
    slots (resources.map .create) = resources.map (·.slot) := by
  induction resources with
  | nil => rfl
  | cons r rest ih => exact congrArg (r.slot :: ·) ih

omit [DecidableEq A] in
/-- The slots of creations, in whatever order. -/
theorem slots_perm {resources : List (Resource A N K V)} {actions : List (Action A N K V)}
    (h : actions.Perm (resources.map .create)) : (slots actions).Perm (resources.map (·.slot)) := by
  rw [← slots_map_create]
  exact h.filterMap _

omit [DecidableEq A] in
theorem creates_of_perm {resources : List (Resource A N K V)} {actions : List (Action A N K V)}
    (h : actions.Perm (resources.map .create)) :
    ∀ x ∈ actions, ∃ r ∈ resources, x = .create r := by
  intro x hx
  obtain ⟨r, hr, rfl⟩ := List.mem_map.mp (h.subset hx)
  exact ⟨r, hr, rfl⟩

/-- **The application of creations of a configuration**, in any order, keeps the specification. -/
theorem keeps_applyPlan [DecidableEq N] [DecidableEq K] (hcfg : cfg.SelfContained) {f : Apply H R W}
    {hostFault : (h : H) → R h → Prop} {finish : State A N K V → List A → α}
    {actions : List (Action A N K V)}
    (hcreate : ∀ x ∈ actions, ∃ r ∈ cfg.resources, x = .create r)
    (hparts : ((dealt ++ slots actions).filter Slot.isPart).Nodup) (failed : List A) :
    Keeps (effect f hostFault) Atomic.free (unshared c₀ J) i (fun s h => Applying cfg i st dealt s.1 h)
      (applyPlan finish actions st failed) := by
  induction actions generalizing st dealt failed with
  | nil => exact keeps_final ⟨_, rfl⟩
  | cons x rest ih =>
      obtain ⟨r, hr, rfl⟩ := hcreate _ List.mem_cons_self
      have hrest := fun y hy => hcreate y (List.mem_cons_of_mem _ hy)
      have hafter : ((dealt ++ [r.slot] ++ slots rest).filter Slot.isPart).Nodup := by
        rw [List.append_assoc]
        exact hparts
      have hsub : List.Sublist (dealt ++ slots rest) (dealt ++ slots (.create r :: rest)) :=
        (List.sublist_cons_self _ _).append_left _
      rw [applyPlan]
      split
      · rename_i hready
        intro s h answer s' hinv hk _ he
        have hown := fun n k => hk.owner (n := n) (k := k) hcfg hinv.1 hr hready
        have hfree : s.1.Free r.slot := by
          cases hslot : r.slot with
          | object n => trivial
          | unnamed => trivial
          | part n k =>
              obtain ⟨args, hcreated⟩ := hown n k hslot
              by_contra hsome
              have hmem := hk.parts n k args hcreated hsome
              rw [List.filter_append, List.nodup_append] at hparts
              refine hparts.2.2 _ (List.mem_filter.mpr ⟨hmem, rfl⟩) _ ?_ rfl
              rw [← hslot]
              refine List.mem_filter.mpr ⟨List.mem_cons_self, ?_⟩
              rw [hslot]
              rfl
        obtain ⟨hc, hw⟩ := effect_create he hfree
        obtain ⟨hleaves, hU⟩ := unshared_create hinv.1 hc hown
        refine ⟨hleaves, ⟨hU, hw ▸ hinv.2⟩, ?_⟩
        have hk' := hk.create hc
        cases answer with
        | error e => exact ⟨_, stable_applying, hk', ih hrest hafter _⟩
        | ok id =>
            have hcreated : Created i r.slot r.args id
                (h ++ [⟨i, .cloud (.create r.slot r.args), .ok id⟩]) :=
              List.mem_append_right _ (List.mem_singleton.mpr rfl)
            exact ⟨_, stable_applying, hk'.entry hr hcreated, ih hrest hafter _⟩
      · exact ih hrest (hparts.sublist (hsub.filter _)) _

end Walk

end SideBySide

end Terraform
