/-
  File:      BlogDemo/Lib/ExpressSession.lean
  Subject:   EXPRESS-SESSION OVER A SHARED STORE, with `resave: false` and `saveUninitialized: false`:
             any number of requests under way, each with its session in memory.

  A request bears the id of its cookie. If a session of that id is stored, the request gets it under
  the same id, else a new one under an id that was never generated before. A session that a handler
  has modified is saved, and its id sent as a cookie; these two happen in either order.

  * `World.step`, `Step` -- one step, as a function and as the relation it is (`step_view`);
  * `Sane` -- **`run_sane`**: the id of a new session is known to no client while the handler of its
    request has not run;
  * `Binds`, `Origin` -- **`run_origin`**: a session that is bound to somebody was bound to them by a
    step of the run;
  * `Over`, **`run_over`** -- a session that is not stored, and that nobody will save, stays over.
-/
import BlogDemo.Lib.Runs
import Mathlib.Logic.Function.Basic

namespace ExpressSession

open Runs

/-! ## 1. The world -/

/-- What is done with a request: the session the handler leaves, none when it has destroyed it, and
    its effect on everything else. `reread` is what the store gives back of a session. -/
structure App (Req D σ : Type) where
  handle : Req → D → σ → Option D × σ
  empty : D
  reread : D → D

variable {ι Req D σ S O : Type}

/-- A request under way: its session was loaded under an id, which may be new; or the handler has
    run, and the session is to be saved and its cookie to be sent, or not. -/
inductive Task (Req D S : Type) where
  | idle
  | loaded (req : Req) (sid : S) (fresh : Bool) (data : D)
  | handled (sid : S) (fresh : Bool) (save : Option D) (cookie : Bool)

structure World (ι Req D σ S : Type) where
  store : S → Option D
  /-- Every id that was generated. -/
  generated : List S
  /-- The ids some client has received. -/
  held : List S
  tasks : ι → Task Req D S
  rest : σ

def World.start (rest : σ) : World ι Req D σ S := ⟨fun _ => none, [], [], fun _ => .idle, rest⟩

inductive Action (ι Req S : Type) where
  /-- A request with the id of its cookie; `sid` is the one that is generated if need be. -/
  | arrive (i : ι) (req : Req) (cookie : Option S) (sid : S)
  | handle (i : ι)
  | save (i : ι)
  | receive (i : ι)
  | expire (sid : S)

variable [DecidableEq ι] [DecidableEq S] [DecidableEq D]

def World.put (w : World ι Req D σ S) (i : ι) (t : Task Req D S) : World ι Req D σ S :=
  { w with tasks := Function.update w.tasks i t }

def World.write (w : World ι Req D σ S) (sid : S) (d : Option D) : World ι Req D σ S :=
  { w with store := Function.update w.store sid d }

/-- The request with its session: the stored one, or a new one. -/
def World.load (A : App Req D σ) (w : World ι Req D σ S) (i : ι) (req : Req) (cookie : Option S)
    (sid : S) : World ι Req D σ S :=
  match cookie with
  | some c => match w.store c with
    | some data => w.put i (.loaded req c false data)
    | none => { w with generated := sid :: w.generated }.put i (.loaded req sid true A.empty)
  | none => { w with generated := sid :: w.generated }.put i (.loaded req sid true A.empty)

/-- **One step.** -/
def World.step (A : App Req D σ) (w : World ι Req D σ S) :
    Action ι Req S → Option (World ι Req D σ S)
  | .arrive i req cookie sid =>
    match w.tasks i with
    | .idle =>
      if (∀ c ∈ cookie, c ∈ w.held) ∧ sid ∉ w.generated then some (w.load A i req cookie sid)
      else none
    | _ => none
  | .handle i =>
    match w.tasks i with
    | .loaded req sid fresh data =>
      match A.handle req data w.rest with
      | (none, rest) =>
        some (({ w with rest := rest }.write sid none).put i (.handled sid fresh none false))
      | (some d, rest) =>
        if A.reread d = A.reread data then
          some ({ w with rest := rest }.put i (.handled sid fresh none false))
        else some ({ w with rest := rest }.put i (.handled sid fresh (some d) true))
    | _ => none
  | .save i =>
    match w.tasks i with
    | .handled sid fresh (some d) cookie =>
      some ((w.write sid (some (A.reread d))).put i (.handled sid fresh none cookie))
    | _ => none
  | .receive i =>
    match w.tasks i with
    | .handled sid fresh save true =>
      some ({ w with held := sid :: w.held }.put i (.handled sid fresh save false))
    | _ => none
  | .expire sid => some (w.write sid none)

/-- **One step, case by case.** -/
inductive Step (A : App Req D σ) (w : World ι Req D σ S) :
    Action ι Req S → World ι Req D σ S → Prop where
  | found (i : ι) (req : Req) (c sid : S) (data : D) (ht : w.tasks i = .idle) (hc : c ∈ w.held)
      (hs : w.store c = some data) :
      Step A w (.arrive i req (some c) sid) (w.put i (.loaded req c false data))
  | generate (i : ι) (req : Req) (cookie : Option S) (sid : S) (ht : w.tasks i = .idle)
      (hfresh : sid ∉ w.generated) : Step A w (.arrive i req cookie sid)
        ({ w with generated := sid :: w.generated }.put i (.loaded req sid true A.empty))
  | destroy (i : ι) (req : Req) (sid : S) (fresh : Bool) (data : D) (rest : σ)
      (ht : w.tasks i = .loaded req sid fresh data)
      (hh : A.handle req data w.rest = (none, rest)) : Step A w (.handle i)
        (({ w with rest := rest }.write sid none).put i (.handled sid fresh none false))
  | keep (i : ι) (req : Req) (sid : S) (fresh : Bool) (data d : D) (rest : σ)
      (ht : w.tasks i = .loaded req sid fresh data)
      (hh : A.handle req data w.rest = (some d, rest)) (hd : A.reread d = A.reread data) :
      Step A w (.handle i) ({ w with rest := rest }.put i (.handled sid fresh none false))
  | modify (i : ι) (req : Req) (sid : S) (fresh : Bool) (data d : D) (rest : σ)
      (ht : w.tasks i = .loaded req sid fresh data)
      (hh : A.handle req data w.rest = (some d, rest)) (hd : A.reread d ≠ A.reread data) :
      Step A w (.handle i) ({ w with rest := rest }.put i (.handled sid fresh (some d) true))
  | save (i : ι) (sid : S) (fresh : Bool) (d : D) (cookie : Bool)
      (ht : w.tasks i = .handled sid fresh (some d) cookie) : Step A w (.save i)
        ((w.write sid (some (A.reread d))).put i (.handled sid fresh none cookie))
  | receive (i : ι) (sid : S) (fresh : Bool) (save : Option D)
      (ht : w.tasks i = .handled sid fresh save true) : Step A w (.receive i)
        ({ w with held := sid :: w.held }.put i (.handled sid fresh save false))
  | expire (sid : S) : Step A w (.expire sid) (w.write sid none)

variable {A : App Req D σ} {w w' w₀ : World ι Req D σ S} {a : Action ι Req S}

theorem step_view (h : w.step A a = some w') : Step A w a w' := by
  unfold World.step at h
  cases a with
  | arrive i req cookie sid =>
      dsimp only at h
      split at h
      · rename_i ht
        split at h
        · rename_i hguard
          cases h
          unfold World.load
          cases cookie with
          | none => exact .generate i req none sid ht hguard.2
          | some c =>
              dsimp only
              split
              · rename_i data hdata
                exact .found i req c sid data ht (hguard.1 c rfl) hdata
              · exact .generate i req (some c) sid ht hguard.2
        · cases h
      · cases h
  | handle i =>
      dsimp only at h
      split at h
      · rename_i req sid fresh data ht
        split at h
        · rename_i rest hh
          cases h
          exact .destroy i req sid fresh data rest ht hh
        · rename_i d rest hh
          split at h
          · rename_i hd
            cases h
            exact .keep i req sid fresh data d rest ht hh hd
          · rename_i hd
            cases h
            exact .modify i req sid fresh data d rest ht hh hd
      · cases h
  | save i =>
      dsimp only at h
      split at h
      · rename_i ht
        cases h
        exact .save i _ _ _ _ ht
      · cases h
  | receive i =>
      dsimp only at h
      split at h
      · rename_i ht
        cases h
        exact .receive i _ _ _ ht
      · cases h
  | expire sid =>
      cases h
      exact .expire sid

/-! ## 2. Ids that no client knows -/

/-- The id of the request's session. -/
def Task.sid? : Task Req D S → Option S
  | .idle => none
  | .loaded _ sid _ _ => some sid
  | .handled sid _ _ _ => some sid

/-- The session was generated for the request. -/
def Task.fresh : Task Req D S → Bool
  | .idle => false
  | .loaded _ _ fresh _ => fresh
  | .handled _ fresh _ _ => fresh

/-- **Ids are generated once**: what is received or used was generated, an id that was not generated
    for its request has been received, and two requests have no new id in common. -/
structure Sane (w : World ι Req D σ S) : Prop where
  held : ∀ s ∈ w.held, s ∈ w.generated
  used : ∀ i s, (w.tasks i).sid? = some s → s ∈ w.generated
  old : ∀ i s, (w.tasks i).sid? = some s → (w.tasks i).fresh = false → s ∈ w.held
  new : ∀ i req s data, w.tasks i = .loaded req s true data → s ∉ w.held
  apart : ∀ i j s, i ≠ j → (w.tasks i).sid? = some s → (w.tasks i).fresh = true →
    (w.tasks j).sid? = some s → (w.tasks j).fresh = false

omit [DecidableEq S] [DecidableEq D] in
/-- One task is another one. -/
theorem Sane.put (h : Sane w) {i : ι} {t : Task Req D S}
    (hused : ∀ s, t.sid? = some s → s ∈ w.generated)
    (hold : ∀ s, t.sid? = some s → t.fresh = false → s ∈ w.held)
    (hnew : ∀ req s data, t = .loaded req s true data → s ∉ w.held)
    (hapart : ∀ j s, j ≠ i → t.sid? = some s → t.fresh = true → (w.tasks j).sid? = some s →
      (w.tasks j).fresh = false) : Sane (w.put i t) := by
  have hput : ∀ j, (w.put i t).tasks j = if j = i then t else w.tasks j := fun j => by
    by_cases hj : j = i
    · subst hj
      simp [World.put]
    · simp [World.put, hj]
  refine ⟨h.held, fun j s => ?_, fun j s => ?_, fun j req s data => ?_, fun j k s hjk => ?_⟩
  · rw [hput]
    split
    · exact hused s
    · exact h.used j s
  · rw [hput]
    split
    · exact hold s
    · exact h.old j s
  · rw [hput]
    split
    · exact hnew req s data
    · exact h.new j req s data
  · rw [hput, hput]
    by_cases hj : j = i
    · have hk : k ≠ i := fun hk => hjk (hj.trans hk.symm)
      rw [if_pos hj, if_neg hk]
      exact hapart k s hk
    · rw [if_neg hj]
      split
      · intro hs hfresh ht
        by_contra hno
        rw [Bool.not_eq_false] at hno
        rw [hapart j s hj ht hno hs] at hfresh
        cases hfresh
      · exact h.apart j k s hjk

omit [DecidableEq S] [DecidableEq D] in
/-- A request whose handler has run keeps its id. -/
theorem Sane.handled (h : Sane w) {i : ι} {t : Task Req D S} (hsid : t.sid? = (w.tasks i).sid?)
    (hfresh : t.fresh = (w.tasks i).fresh) (ht : ∀ req s data, t ≠ .loaded req s true data) :
    Sane (w.put i t) := by
  refine h.put ?_ ?_ (fun req s data heq => absurd heq (ht req s data)) ?_
  · rw [hsid]
    exact h.used i
  · rw [hsid, hfresh]
    exact h.old i
  · rw [hsid, hfresh]
    exact fun j s hj hs hf hsj => h.apart i j s hj.symm hs hf hsj

/-- **One step keeps the world sane.** -/
theorem step_sane (h : Sane w) (hs : w.step A a = some w') : Sane w' := by
  cases step_view hs with
  | found i req c sid data ht hc hstore =>
      refine h.put ?_ ?_ nofun nofun
      · intro s hs
        cases hs
        exact h.held _ hc
      · intro s hs _
        cases hs
        exact hc
  | generate i req cookie sid ht hfresh =>
      have hw : Sane { w with generated := sid :: w.generated } :=
        ⟨fun s hs => List.mem_cons_of_mem _ (h.held s hs),
          fun j s hs => List.mem_cons_of_mem _ (h.used j s hs), h.old, h.new, h.apart⟩
      refine hw.put ?_ nofun ?_ ?_
      · intro s hs
        cases hs
        exact List.mem_cons_self
      · intro req s data heq
        cases heq
        exact fun hmem => hfresh (h.held _ hmem)
      · intro j s _ hs _ hsj
        cases hs
        exact absurd (h.used j _ hsj) hfresh
  | destroy i req sid fresh data rest ht hh =>
      have hw : Sane ({ w with rest := rest }.write sid none) :=
        ⟨h.held, h.used, h.old, h.new, h.apart⟩
      exact hw.handled (by simp [World.write, ht, Task.sid?]) (by simp [World.write, ht, Task.fresh])
        nofun
  | keep i req sid fresh data d rest ht hh hd =>
      have hw : Sane { w with rest := rest } := ⟨h.held, h.used, h.old, h.new, h.apart⟩
      exact hw.handled (by simp [ht, Task.sid?]) (by simp [ht, Task.fresh]) nofun
  | modify i req sid fresh data d rest ht hh hd =>
      have hw : Sane { w with rest := rest } := ⟨h.held, h.used, h.old, h.new, h.apart⟩
      exact hw.handled (by simp [ht, Task.sid?]) (by simp [ht, Task.fresh]) nofun
  | save i sid fresh d cookie ht =>
      have hw : Sane (w.write sid (some (A.reread d))) := ⟨h.held, h.used, h.old, h.new, h.apart⟩
      exact hw.handled (by simp [World.write, ht, Task.sid?]) (by simp [World.write, ht, Task.fresh])
        nofun
  | receive i sid fresh save ht =>
      have hsid : (w.tasks i).sid? = some sid := by rw [ht]; rfl
      have hw : Sane { w with held := sid :: w.held } := by
        refine ⟨fun s hs => ?_, h.used, fun j s hs hf => List.mem_cons_of_mem _ (h.old j s hs hf),
          fun j req s data htj hmem => ?_, h.apart⟩
        · rcases List.mem_cons.mp hs with rfl | hs
          · exact h.used i s hsid
          · exact h.held s hs
        · rcases List.mem_cons.mp hmem with rfl | hmem
          · -- the new session of another request would have the id that is received
            have hij : i ≠ j := by
              intro heq'
              subst heq'
              rw [ht] at htj
              cases htj
            cases hf : (w.tasks i).fresh with
            | false => exact h.new j req s data htj (h.old i s hsid hf)
            | true =>
                have hfj := h.apart i j s hij hsid hf (by rw [htj]; rfl)
                rw [htj] at hfj
                cases hfj
          · exact h.new j req s data htj hmem
      exact hw.handled (by simp [ht, Task.sid?]) (by simp [ht, Task.fresh]) nofun
  | expire sid => exact ⟨h.held, h.used, h.old, h.new, h.apart⟩

omit [DecidableEq ι] [DecidableEq S] [DecidableEq D] in
theorem start_sane (rest : σ) : Sane (World.start rest : World ι Req D σ S) :=
  ⟨nofun, nofun, nofun, nofun, nofun⟩

/-- **Every world a run reaches is sane.** -/
theorem run_sane {C : World ι Req D σ S → Action ι Req S → Prop} (h : Run (World.step A) C w₀ w)
    (h₀ : Sane w₀) : Sane w :=
  h.invariant h₀ fun _ ih _ hs => step_sane ih hs

/-! ## 3. Who a session is bound to -/

section Owners

variable (owner : D → Option O) {C : World ι Req D σ S → Action ι Req S → Prop}

/-- **The handler of the request binds its session to `u`**, whom it was not bound to before. -/
def Binds (A : App Req D σ) (w : World ι Req D σ S) (i : ι) (s : S) (u : O) : Prop :=
  ∃ req fresh data d rest, w.tasks i = .loaded req s fresh data ∧
    A.handle req data w.rest = (some d, rest) ∧ owner d = some u ∧ owner data ≠ some u

/-- **The session `s` was bound to `u` in the run from `w₀` to `w`**. -/
def Origin (A : App Req D σ) (C : World ι Req D σ S → Action ι Req S → Prop)
    (w₀ w : World ι Req D σ S) (s : S) (u : O) : Prop :=
  ∃ w₁ w₂ i, Run (World.step A) C w₀ w₁ ∧ C w₁ (.handle i) ∧ Binds owner A w₁ i s u ∧
    w₁.step A (.handle i) = some w₂ ∧ Run (World.step A) C w₂ w

/-- The session a request has in memory. -/
def Task.session? : Task Req D S → Option (S × D)
  | .loaded _ sid _ data => some (sid, data)
  | .handled sid _ (some d) _ => some (sid, d)
  | _ => none

/-- Every session that is bound to somebody, stored or in memory, has its origin in the run. -/
structure Traced (A : App Req D σ) (C : World ι Req D σ S → Action ι Req S → Prop)
    (w₀ w : World ι Req D σ S) : Prop where
  store : ∀ s d u, w.store s = some d → owner d = some u → Origin owner A C w₀ w s u
  tasks : ∀ i s d u, (w.tasks i).session? = some (s, d) → owner d = some u →
    Origin owner A C w₀ w s u

variable {owner}

theorem Origin.step {s : S} {u : O} (h : Origin owner A C w₀ w s u) (hc : C w a)
    (hs : w.step A a = some w') : Origin owner A C w₀ w' s u := by
  obtain ⟨w₁, w₂, i, h₁, hc₁, hb, hs₁, h₂⟩ := h
  exact ⟨w₁, w₂, i, h₁, hc₁, hb, hs₁, .step h₂ hc hs⟩

/-- What the world after a step has in the store and in memory. -/
theorem Traced.of_put {w₁ : World ι Req D σ S} {i : ι} {t : Task Req D S}
    (hstore : ∀ s d u, w₁.store s = some d → owner d = some u →
      Origin owner A C w₀ (w₁.put i t) s u)
    (htasks : ∀ j s d u, (w₁.tasks j).session? = some (s, d) → owner d = some u →
      Origin owner A C w₀ (w₁.put i t) s u)
    (ht : ∀ s d u, t.session? = some (s, d) → owner d = some u →
      Origin owner A C w₀ (w₁.put i t) s u) : Traced owner A C w₀ (w₁.put i t) := by
  refine ⟨hstore, fun j s d u hj => ?_⟩
  by_cases hji : j = i
  · subst hji
    exact ht s d u (by simpa [World.put] using hj)
  · exact htasks j s d u (by simpa [World.put, hji] using hj)

variable (hreread : ∀ d, owner (A.reread d) = owner d) (hempty : owner A.empty = none)

include hreread hempty in
/-- **One step keeps every session traced.** -/
theorem step_traced (h : Traced owner A C w₀ w) (hrun : Run (World.step A) C w₀ w) (hc : C w a)
    (hs : w.step A a = some w') : Traced owner A C w₀ w' := by
  have hstore : ∀ s d u, w.store s = some d → owner d = some u → Origin owner A C w₀ w' s u :=
    fun s d u hd hu => (h.store s d u hd hu).step hc hs
  have htasks : ∀ j s d u, (w.tasks j).session? = some (s, d) → owner d = some u →
      Origin owner A C w₀ w' s u := fun j s d u hd hu => (h.tasks j s d u hd hu).step hc hs
  have hwrite : ∀ sid s d u, (w.write sid none).store s = some d → owner d = some u →
      Origin owner A C w₀ w' s u := by
    intro sid s d u hd hu
    by_cases hsid : s = sid
    · subst hsid
      simp [World.write] at hd
    · exact hstore s d u (by simpa [World.write, hsid] using hd) hu
  cases step_view hs with
  | found i req c sid data ht hheld hdata =>
      refine .of_put hstore htasks fun s d u hd hu => ?_
      cases hd
      exact hstore _ _ u hdata hu
  | generate i req cookie sid ht hfresh =>
      refine .of_put hstore htasks fun s d u hd hu => ?_
      cases hd
      rw [hempty] at hu
      cases hu
  | destroy i req sid fresh data rest ht hh => exact .of_put (hwrite sid) htasks nofun
  | keep i req sid fresh data d rest ht hh hd => exact .of_put hstore htasks nofun
  | modify i req sid fresh data d rest ht hh hd =>
      refine .of_put hstore htasks fun s d' u hd' hu => ?_
      cases hd'
      by_cases hbefore : owner data = some u
      · exact htasks i sid data u (by rw [ht]; rfl) hbefore
      · exact ⟨w, _, i, hrun, hc, ⟨req, fresh, data, d, rest, ht, hh, hu, hbefore⟩, hs, .start⟩
  | save i sid fresh d cookie ht =>
      have hi : (w.tasks i).session? = some (sid, d) := by rw [ht]; rfl
      refine .of_put (fun s d' u hd' hu => ?_) htasks nofun
      by_cases hsid : s = sid
      · subst hsid
        obtain rfl : A.reread d = d' := by simpa [World.write] using hd'
        rw [hreread] at hu
        exact htasks i s d u hi hu
      · exact hstore s d' u (by simpa [World.write, hsid] using hd') hu
  | receive i sid fresh save ht =>
      refine .of_put hstore htasks fun s d u hd hu => ?_
      refine htasks i s d u ?_ hu
      rw [ht]
      cases save with
      | none => cases hd
      | some d' => exact hd
  | expire sid => exact ⟨hwrite sid, htasks⟩

include hreread hempty in
/-- **A session that is bound to somebody** was bound to them by a step of the run. -/
theorem run_origin {rest : σ} (h : Run (World.step A) C (World.start rest) w) :
    Traced owner A C (World.start rest) w :=
  h.invariant ⟨nofun, nofun⟩ fun hrun ih hc hs => step_traced hreread hempty ih hrun hc hs

end Owners

/-! ## 4. The end of a session -/

section End

variable {C : World ι Req D σ S → Action ι Req S → Prop} {s : S}

/-- The handler of the request modifies no session: it leaves it, or destroys it. -/
def Leaves (A : App Req D σ) (req : Req) : Prop :=
  ∀ data rest d rest', A.handle req data rest = (some d, rest') → A.reread d = A.reread data

/-- **The session `s` is over**: it is not stored, no request will save it, and the requests that have it
    in memory leave it. -/
structure Over (A : App Req D σ) (s : S) (w : World ι Req D σ S) : Prop where
  known : s ∈ w.generated
  gone : w.store s = none
  saved : ∀ i fresh d cookie, w.tasks i ≠ .handled s fresh (some d) cookie
  leaves : ∀ i req fresh data, w.tasks i = .loaded req s fresh data → Leaves A req

/-- The requests that have the session `s` in memory are among those of `w₀`. -/
def NoNew (s : S) (w₀ w : World ι Req D σ S) : Prop :=
  ∀ i req fresh data, w.tasks i = .loaded req s fresh data → w₀.tasks i = .loaded req s fresh data

omit [DecidableEq S] [DecidableEq D] in
/-- What becomes of a world in which one task is another one, which has not the session in memory. -/
theorem Over.put (h : Over A s w) (h₀ : NoNew s w₀ w) {i : ι} {t : Task Req D S}
    (hsaved : ∀ fresh d cookie, t ≠ .handled s fresh (some d) cookie)
    (hloaded : ∀ req fresh data, t ≠ .loaded req s fresh data) :
    Over A s (w.put i t) ∧ NoNew s w₀ (w.put i t) := by
  have hput : ∀ j, (w.put i t).tasks j = if j = i then t else w.tasks j :=
    fun j => Function.update_apply ..
  refine ⟨⟨h.known, h.gone, fun j fresh d cookie hj => ?_, fun j req fresh data hj => ?_⟩,
    fun j req fresh data hj => ?_⟩
  all_goals rw [hput] at hj; split at hj
  · exact hsaved _ _ _ hj
  · exact h.saved _ _ _ _ hj
  · exact absurd hj (hloaded _ _ _)
  · exact h.leaves _ _ _ _ hj
  · exact absurd hj (hloaded _ _ _)
  · exact h₀ _ _ _ _ hj

/-- **One step leaves the session over**, and gives it to no request. -/
theorem step_over (h : Over A s w) (h₀ : NoNew s w₀ w) (hs : w.step A a = some w') :
    Over A s w' ∧ NoNew s w₀ w' := by
  cases step_view hs with
  | found i req c sid data ht hheld hstore =>
      refine h.put h₀ nofun fun req' fresh data' heq => ?_
      cases heq
      exact Option.some_ne_none data (hstore.symm.trans h.gone)
  | generate i req cookie sid ht hfresh =>
      have hw : Over A s { w with generated := sid :: w.generated } :=
        ⟨List.mem_cons_of_mem _ h.known, h.gone, h.saved, h.leaves⟩
      refine hw.put h₀ nofun fun req' fresh data' heq => ?_
      cases heq
      exact hfresh h.known
  | destroy i req sid fresh data rest ht hh =>
      have hw : Over A s ({ w with rest := rest }.write sid none) := by
        refine ⟨h.known, ?_, h.saved, h.leaves⟩
        by_cases hsid : s = sid
        · subst hsid
          exact Function.update_self ..
        · exact (Function.update_of_ne hsid ..).trans h.gone
      exact hw.put h₀ nofun nofun
  | keep i req sid fresh data d rest ht hh hd =>
      have hw : Over A s { w with rest := rest } := ⟨h.known, h.gone, h.saved, h.leaves⟩
      exact hw.put h₀ nofun nofun
  | modify i req sid fresh data d rest ht hh hd =>
      have hw : Over A s { w with rest := rest } := ⟨h.known, h.gone, h.saved, h.leaves⟩
      refine hw.put h₀ (fun fresh' d' cookie' heq => ?_) nofun
      cases heq
      exact hd (h.leaves i req fresh data ht data w.rest d rest hh)
  | save i sid fresh d cookie ht =>
      have hsid : s ≠ sid := fun heq => h.saved i fresh d cookie (heq ▸ ht)
      have hw : Over A s (w.write sid (some (A.reread d))) :=
        ⟨h.known, (Function.update_of_ne hsid ..).trans h.gone, h.saved, h.leaves⟩
      exact hw.put h₀ nofun nofun
  | receive i sid fresh save ht =>
      have hw : Over A s { w with held := sid :: w.held } := ⟨h.known, h.gone, h.saved, h.leaves⟩
      refine hw.put h₀ (fun fresh' d cookie' heq => ?_) nofun
      cases heq
      exact h.saved i fresh d true ht
  | expire sid =>
      refine ⟨⟨h.known, ?_, h.saved, h.leaves⟩, h₀⟩
      by_cases hsid : s = sid
      · subst hsid
        exact Function.update_self ..
      · exact (Function.update_of_ne hsid ..).trans h.gone

/-- **A session that is over stays over**, in every run. -/
theorem run_over (hrun : Run (World.step A) C w₀ w) (h : Over A s w₀) :
    Over A s w ∧ NoNew s w₀ w :=
  hrun.invariant ⟨h, fun _ _ _ _ h => h⟩ fun _ ih _ hs => step_over ih.1 ih.2 hs

end End

end ExpressSession
