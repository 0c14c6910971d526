/-
  File:      BlogDemo/Lib/Interleave.lean
  Subject:   INTERLEAVED PROGRAMS OVER ONE STORE. Any family of programs, one for each invocation
             `i : ι`; a step lets one of them make its next call.

  An invocation that stops half way is one that is never scheduled again, and an invocation that
  has not begun is one that has not been scheduled yet, so neither needs a step of its own.

  * `Config`, `Step`, `Run` -- the machine; `hist` is a history variable, it records the calls
    made and no step reads it;
  * `Guard` -- restricts a machine to the runs whose steps all meet a condition (`free` lets
    every step through);
  * `Spec`, `Stable`, `Keeps` -- rely and guarantee: a program keeps `K` from call to call while
    the others only do what they guarantee;
  * `run_meets` -- an invariant of the store and what every program makes of its answers;
  * `callsOf`, `run_trace` -- the part of a run that one invocation has made, as a run of its own
    program up to where it is; `run_alone` -- an uninterrupted run of one invocation is a run;
  * **`run_keeps`**, **`step_guar`** -- programs that keep the specification one by one keep it
    together, in every run.
-/
import BlogDemo.Lib.Prog

namespace Atomic

/-- One call of a run: who made it, the operation and its answer. -/
structure Call (ι Op : Type) (Res : Op → Type) where
  who : ι
  op : Op
  res : Res op

variable {ι Op : Type} {Res : Op → Type} {α σ : Type}

/-- The machine: the store, what every invocation has still to do, and the calls made so far. -/
structure Config (ι Op : Type) (Res : Op → Type) (α σ : Type) where
  store : σ
  pool : ι → Prog Op Res α
  hist : List (Call ι Op Res)

/-- The machine before the first call. -/
def Config.init (s : σ) (pool : ι → Prog Op Res α) : Config ι Op Res α σ := ⟨s, pool, []⟩

/-- A condition on steps: the history, the invocation, its call and the store before it. -/
abbrev Guard (ι Op : Type) (Res : Op → Type) (σ : Type) :=
  List (Call ι Op Res) → ι → Op → σ → Prop

/-- Every step is let through. -/
def free : Guard ι Op Res σ := fun _ _ _ _ => True

/-! ## 1. Steps and runs -/

section Machine

variable [DecidableEq ι] (E : Effect Op Res σ) (C : Guard ι Op Res σ)

/-- **One step**: invocation `i` makes its next call, which meets the condition `C`. -/
inductive Step : Config ι Op Res α σ → Call ι Op Res → Config ι Op Res α σ → Prop where
  | call (c : Config ι Op Res α σ) (i : ι) (op : Op) (next : Res op → Prog Op Res α)
      (r : Res op) (s' : σ) (hp : c.pool i = .call op next) (hc : C c.hist i op c.store)
      (he : E op c.store r s') :
      Step c ⟨i, op, r⟩ ⟨s', Function.update c.pool i (next r), c.hist ++ [⟨i, op, r⟩]⟩

/-- **A run**: any number of steps, in any order. -/
inductive Run (c0 : Config ι Op Res α σ) : Config ι Op Res α σ → Prop where
  | start : Run c0 c0
  | step {c c' : Config ι Op Res α σ} {e : Call ι Op Res} (h : Run c0 c) (hs : Step E C c e c') :
      Run c0 c'

variable {E C} {c c' c'' : Config ι Op Res α σ} {e : Call ι Op Res}

theorem Run.single (hs : Step E C c e c') : Run E C c c' := .step .start hs

theorem Run.trans (h : Run E C c c') (h' : Run E C c' c'') : Run E C c c'' := by
  induction h' with
  | start => exact h
  | step _ hs ih => exact .step ih hs

/-- The step records the call it makes. -/
theorem Step.hist (hs : Step E C c e c') : c'.hist = c.hist ++ [e] := by
  cases hs; rfl

theorem Step.effect (hs : Step E C c e c') : E e.op c.store e.res c'.store := by
  cases hs with
  | call i op next r s' hp hc he => exact he

/-- What the step takes from its program, and what it leaves of it. -/
theorem Step.program (hs : Step E C c e c') :
    ∃ next, c.pool e.who = .call e.op next ∧ c'.pool e.who = next e.res := by
  cases hs with
  | call i op next r s' hp hc he => exact ⟨next, hp, Function.update_self ..⟩

/-- The step leaves the programs of the others alone. -/
theorem Step.others (hs : Step E C c e c') {j : ι} (hj : j ≠ e.who) : c'.pool j = c.pool j := by
  cases hs with
  | call i op next r s' hp hc he => exact Function.update_of_ne hj ..

/-- The step meets the condition of its machine. -/
theorem Step.guard (hs : Step E C c e c') : C c.hist e.who e.op c.store := by
  cases hs with
  | call i op next r s' hp hc he => exact hc

/-- A run only adds to the history. -/
theorem Run.hist_sub (h : Run E C c c') : ∀ e ∈ c.hist, e ∈ c'.hist := by
  induction h with
  | start => exact fun _ h => h
  | step _ hs ih => exact fun e he => by rw [hs.hist]; exact List.mem_append_left _ (ih e he)

/-- A step under a condition is a step of the free machine. -/
theorem Step.free (hs : Step E C c e c') : Step E free c e c' := by
  cases hs with
  | call i op next r s' hp hc he => exact .call c i op next r s' hp trivial he

theorem Run.free (h : Run E C c c') : Run E Atomic.free c c' := by
  induction h with
  | start => exact .start
  | step _ hs ih => exact .step ih hs.free

/-- An invariant of every step holds along a run. -/
theorem Run.invariant {I : Config ι Op Res α σ → Prop}
    (hI : ∀ c e c', Step E C c e c' → I c → I c') (h : Run E C c c') (h0 : I c) : I c' := by
  induction h with
  | start => exact h0
  | step _ hs ih => exact hI _ _ _ hs ih

/-- **Programs that meet their guarantees together**: if every call that satisfies `issue` is
    answered as `answers` assumes and keeps `I`, then in every run `I` holds of the store and each
    program still meets what it met. -/
theorem run_meets {I : σ → Prop} {issue : Op → Prop} {answers : (op : Op) → Res op → Prop}
    {P : ι → α → Prop}
    (hE : ∀ op s r s', I s → issue op → E op s r s' → answers op r ∧ I s') (h : Run E C c c')
    (h0 : I c.store ∧ ∀ i, (c.pool i).Meets issue answers (P i)) :
    I c'.store ∧ ∀ i, (c'.pool i).Meets issue answers (P i) := by
  induction h with
  | start => exact h0
  | @step c₁ c₂ e _ hs ih =>
      obtain ⟨hstore, hpool⟩ := ih
      obtain ⟨next, hp, hnext⟩ := hs.program
      have hi := hpool e.who
      rw [hp] at hi
      obtain ⟨hr, hs'⟩ := hE e.op _ e.res _ hstore hi.1 hs.effect
      refine ⟨hs', fun j => ?_⟩
      by_cases hj : j = e.who
      · subst hj
        rw [hnext]
        exact hi.2 e.res hr
      · rw [hs.others hj]
        exact hpool j

/-- Let the invocations make their next calls in the order of `order`, each answered nominally. -/
def Config.sched (f : Apply Op Res σ) (c : Config ι Op Res α σ) : List ι → Config ι Op Res α σ
  | [] => c
  | i :: order =>
    match c.pool i with
    | .ret _ => c.sched f order
    | .call op next =>
      Config.sched f ⟨(f op c.store).2, Function.update c.pool i (next (f op c.store).1),
        c.hist ++ [⟨i, op, (f op c.store).1⟩]⟩ order

theorem sched_append (f : Apply Op Res σ) (c : Config ι Op Res α σ)
    (order order' : List ι) : c.sched f (order ++ order') = (c.sched f order).sched f order' := by
  induction order generalizing c with
  | nil => rfl
  | cons i order ih =>
      rw [List.cons_append, Config.sched, Config.sched]
      split <;> exact ih _

/-- The next call of `i`, answered nominally, is a step. -/
theorem sched_step {f : Apply Op Res σ} (hE : ∀ op s, E op s (f op s).1 (f op s).2)
    (c : Config ι Op Res α σ) (order : List ι) {i : ι} {op : Op} {next : Res op → Prog Op Res α}
    (hp : (c.sched f order).pool i = .call op next) :
    Step E Atomic.free (c.sched f order) ⟨i, op, (f op (c.sched f order).store).1⟩
      (c.sched f (order ++ [i])) := by
  rw [sched_append]
  simp only [Config.sched, hp]
  exact .call _ i op next _ _ hp trivial (hE op _)

/-- Whatever the order, the calls answered nominally are a run. -/
theorem sched_run {f : Apply Op Res σ} (hE : ∀ op s, E op s (f op s).1 (f op s).2)
    (c : Config ι Op Res α σ) (order : List ι) : Run E Atomic.free c (c.sched f order) := by
  induction order generalizing c with
  | nil => exact .start
  | cons i order ih =>
      unfold Config.sched
      split
      · exact ih c
      · rename_i op next hp
        exact (Run.single (.call c i op next _ _ hp trivial (hE op c.store))).trans (ih _)

theorem sched_rest {f : Apply Op Res σ} (hE : ∀ op s, E op s (f op s).1 (f op s).2)
    (c : Config ι Op Res α σ) (order rest : List ι) :
    Run E Atomic.free (c.sched f order) (c.sched f (order ++ rest)) := by
  rw [sched_append]
  exact sched_run hE _ rest

end Machine

/-! ## 2. The calls of one invocation -/

/-- **A program up to some call**: what it has called, and what it has still to do. -/
inductive Prog.Trace : Prog Op Res α → List (Made Op Res) → Prog Op Res α → Prop where
  | start (p : Prog Op Res α) : Trace p [] p
  | call {op : Op} {next : Res op → Prog Op Res α} {es : List (Made Op Res)} {p' : Prog Op Res α}
      (r : Res op) (h : Trace (next r) es p') : Trace (.call op next) (⟨op, r⟩ :: es) p'

namespace Prog

variable {p p' : Prog Op Res α} {es : List (Made Op Res)} {op : Op} {next : Res op → Prog Op Res α}

/-- One more call. -/
theorem Trace.snoc (h : p.Trace es p') (hp : p' = .call op next) (r : Res op) :
    p.Trace (es ++ [⟨op, r⟩]) (next r) := by
  induction h with
  | start p =>
      subst hp
      exact .call r (.start _)
  | call r' h ih => exact .call r' (ih hp)

/-- A program that makes no call has made none. -/
theorem Trace.of_ret {a : α} (h : Trace (.ret a) es p') : es = [] := by
  cases h
  rfl

/-- A program that has come to its end has made its first call. -/
theorem Trace.of_call (h : Trace (.call op next) es p') (hf : p'.Final) :
    ∃ r es', es = ⟨op, r⟩ :: es' ∧ (next r).Trace es' p' := by
  cases h with
  | start =>
      obtain ⟨a, ha⟩ := hf
      cases ha
  | call r h => exact ⟨r, _, rfl, h⟩

end Prog

section Traces

variable [DecidableEq ι] {E : Effect Op Res σ} {C : Guard ι Op Res σ} {c : Config ι Op Res α σ}
  {hist : List (Call ι Op Res)} {i j : ι}

/-- The calls that the invocation `i` has made. -/
def callsOf (i : ι) (hist : List (Call ι Op Res)) : List (Made Op Res) :=
  (hist.filter (·.who = i)).map fun e => ⟨e.op, e.res⟩

theorem callsOf_self {op : Op} (r : Res op) :
    callsOf i (hist ++ [⟨i, op, r⟩]) = callsOf i hist ++ [⟨op, r⟩] := by
  simp [callsOf, List.filter_append]

theorem callsOf_of_ne {op : Op} (r : Res op) (h : j ≠ i) :
    callsOf i (hist ++ [⟨j, op, r⟩]) = callsOf i hist := by
  simp [callsOf, List.filter_append, h]

theorem mem_callsOf {e : Call ι Op Res} (h : e ∈ hist) : ⟨e.op, e.res⟩ ∈ callsOf e.who hist :=
  List.mem_map.mpr ⟨e, List.mem_filter.mpr ⟨h, decide_eq_true rfl⟩, rfl⟩

theorem exists_of_mem_callsOf {m : Made Op Res} (h : m ∈ callsOf i hist) :
    ∃ e ∈ hist, e.who = i ∧ (⟨e.op, e.res⟩ : Made Op Res) = m := by
  obtain ⟨e, he, rfl⟩ := List.mem_map.mp h
  obtain ⟨hmem, hwho⟩ := List.mem_filter.mp he
  exact ⟨e, hmem, of_decide_eq_true hwho, rfl⟩

/-- **What an invocation has called in a run** is a run of its program, up to where it is. -/
theorem run_trace {s : σ} {pool : ι → Prog Op Res α} (h : Run E C (Config.init s pool) c) (i : ι) :
    (pool i).Trace (callsOf i c.hist) (c.pool i) := by
  induction h with
  | start => exact .start _
  | @step c₁ c₂ e _ hs ih =>
      cases hs with
      | call j op next r s' hp hc he =>
          by_cases hj : j = i
          · subst hj
            show (pool j).Trace (callsOf j (c₁.hist ++ [⟨j, op, r⟩]))
              (Function.update c₁.pool j (next r) j)
            rw [callsOf_self, Function.update_self]
            exact ih.snoc hp r
          · show (pool i).Trace (callsOf i (c₁.hist ++ [⟨j, op, r⟩]))
              (Function.update c₁.pool j (next r) i)
            rw [callsOf_of_ne r hj, Function.update_of_ne (Ne.symm hj)]
            exact ih

/-- The calls of an invocation in the history. -/
def callsBy (i : ι) (es : List (Made Op Res)) : List (Call ι Op Res) :=
  es.map fun m => ⟨i, m.op, m.res⟩

theorem callsOf_callsBy_of_ne (es : List (Made Op Res)) (h : j ≠ i) :
    callsOf i (hist ++ callsBy j es) = callsOf i hist := by
  induction es generalizing hist with
  | nil => simp [callsBy]
  | cons m es ih =>
      have hcons : hist ++ callsBy j (m :: es) = hist ++ [⟨j, m.op, m.res⟩] ++ callsBy j es := by
        simp [callsBy]
      rw [hcons, ih, callsOf_of_ne m.res h]

/-- **An invocation that runs alone**, from its next call to its end, is a run of the machine. -/
theorem run_alone {p : Prog Op Res α} {es : List (Made Op Res)} {a : α} {s' : σ}
    (hp : c.pool i = p) (h : Exec E p c.store es a s') :
    Run E Atomic.free c ⟨s', Function.update c.pool i (.ret a), c.hist ++ callsBy i es⟩ := by
  obtain ⟨s, pool, hist⟩ := c
  dsimp only at hp h ⊢
  induction h generalizing pool hist with
  | ret a s =>
      have hsame : Function.update pool i (.ret a) = pool := by
        rw [← hp]
        exact Function.update_eq_self i pool
      simp only [callsBy, List.map_nil, List.append_nil, hsame]
      exact .start
  | @call op next s s₁ s₂ r es a he h ih =>
      have hstep : Step E Atomic.free ⟨s, pool, hist⟩ ⟨i, op, r⟩
          ⟨s₁, Function.update pool i (next r), hist ++ [⟨i, op, r⟩]⟩ :=
        .call ⟨s, pool, hist⟩ i op next r s₁ hp trivial he
      refine (Run.single hstep).trans ?_
      have hrest := ih (Function.update pool i (next r)) (hist ++ [⟨i, op, r⟩])
        (Function.update_self ..)
      simpa [callsBy] using hrest

end Traces

/-! ## 3. Rely and guarantee -/

/-- **The specification of a family of programs**: an invariant of the store and the history,
    and what every call of an invocation guarantees about the step it makes. -/
structure Spec (ι Op : Type) (Res : Op → Type) (σ : Type) where
  inv : σ → List (Call ι Op Res) → Prop
  guar : ι → σ → List (Call ι Op Res) → (op : Op) → Res op → σ → Prop

/-- `K` survives every step of another invocation. -/
def Stable (S : Spec ι Op Res σ) (i : ι) (K : σ → List (Call ι Op Res) → Prop) : Prop :=
  ∀ j, j ≠ i → ∀ s h op r s', S.inv s h → S.guar j s h op r s' → K s h → K s' (h ++ [⟨j, op, r⟩])

/-- **The program keeps the specification**: whenever it makes its next call in a state where it
    knows `K`, the call does what it guarantees, the invariant holds after it, and the rest keeps
    the specification from what it then knows. -/
def Keeps (E : Effect Op Res σ) (C : Guard ι Op Res σ) (S : Spec ι Op Res σ) (i : ι) :
    (σ → List (Call ι Op Res) → Prop) → Prog Op Res α → Prop
  | _, .ret _ => True
  | K, .call op next => ∀ s h r s', S.inv s h → K s h → C h i op s → E op s r s' →
      S.guar i s h op r s' ∧ S.inv s' (h ++ [⟨i, op, r⟩]) ∧
      ∃ K' : σ → List (Call ι Op Res) → Prop, Stable S i K' ∧ K' s' (h ++ [⟨i, op, r⟩]) ∧
        Keeps E C S i K' (next r)

section Rules

variable {E : Effect Op Res σ} {C : Guard ι Op Res σ} {S : Spec ι Op Res σ} {i : ι}
  {K K' : σ → List (Call ι Op Res) → Prop}

/-- What only speaks of the history and is kept when it grows is stable. -/
theorem stable_grows {K : List (Call ι Op Res) → Prop} (hK : ∀ h e, K h → K (h ++ [e])) :
    Stable S i fun _ h => K h := fun _ _ _ h _ _ _ _ _ hk => hK h _ hk

/-- What an invocation has not done yet is stable. -/
theorem stable_notYet {P : Call ι Op Res → Prop} :
    Stable S i fun _ h => ∀ e ∈ h, e.who = i → ¬ P e := by
  intro j hj s h op r s' _ _ hK e he hw
  rcases List.mem_append.mp he with he | he
  · exact hK e he hw
  · rw [List.mem_singleton] at he
    subst he
    exact absurd hw hj

theorem Stable.and (h : Stable S i K) (h' : Stable S i K') :
    Stable S i fun s h => K s h ∧ K' s h :=
  fun j hj s hs op r s' hI hg hk =>
    ⟨h j hj s hs op r s' hI hg hk.1, h' j hj s hs op r s' hI hg hk.2⟩

/-- A program that makes no call keeps everything. -/
theorem keeps_final {p : Prog Op Res α} (h : p.Final) : Keeps E C S i K p := by
  obtain ⟨a, rfl⟩ := h
  trivial

/-- A call after which the program makes no other. -/
theorem keeps_last {op : Op} {next : Res op → Prog Op Res α} (hnext : ∀ r, (next r).Final)
    (hstep : ∀ s h r s', S.inv s h → K s h → C h i op s → E op s r s' →
      S.guar i s h op r s' ∧ S.inv s' (h ++ [⟨i, op, r⟩])) :
    Keeps E C S i K (.call op next) := by
  intro s h r s' hinv hk hc he
  obtain ⟨hg, hinv'⟩ := hstep s h r s' hinv hk hc he
  exact ⟨hg, hinv', fun _ _ => True, stable_grows fun _ _ h => h, trivial, keeps_final (hnext r)⟩

end Rules

/-- What is known of every invocation of the machine. -/
def Known (E : Effect Op Res σ) (C : Guard ι Op Res σ) (S : Spec ι Op Res σ)
    (c : Config ι Op Res α σ) : Prop :=
  S.inv c.store c.hist ∧
    ∀ i, ∃ K, Stable S i K ∧ K c.store c.hist ∧ Keeps E C S i K (c.pool i)

section Soundness

variable [DecidableEq ι] {E : Effect Op Res σ} {C : Guard ι Op Res σ} {S : Spec ι Op Res σ}
  {c c' : Config ι Op Res α σ} {e : Call ι Op Res}

/-- **One step**: it does what its invocation guarantees, and all that is known is kept. -/
theorem known_step (hK : Known E C S c) (hs : Step E C c e c') :
    S.guar e.who c.store c.hist e.op e.res c'.store ∧ Known E C S c' := by
  obtain ⟨hinv, hpool⟩ := hK
  obtain ⟨next, hp, hnext⟩ := hs.program
  obtain ⟨K, _, hk, hkeeps⟩ := hpool e.who
  rw [hp] at hkeeps
  obtain ⟨hg, hinv', K', hst', hk', hkeeps'⟩ := hkeeps _ _ _ _ hinv hk hs.guard hs.effect
  refine ⟨hg, ?_⟩
  rw [Known, hs.hist]
  refine ⟨hinv', fun j => ?_⟩
  by_cases hj : j = e.who
  · subst hj
    rw [hnext]
    exact ⟨K', hst', hk', hkeeps'⟩
  · -- another invocation only watched: what it knew is stable
    obtain ⟨L, hstL, hl, hkeepsL⟩ := hpool j
    rw [hs.others hj]
    exact ⟨L, hstL, hstL e.who (Ne.symm hj) _ _ _ _ _ hinv hg hl, hkeepsL⟩

/-- **Programs that keep a specification one by one keep it together**, in every run. -/
theorem run_keeps (h0 : Known E C S c) (h : Run E C c c') : Known E C S c' :=
  h.invariant (fun _ _ _ hs hK => (known_step hK hs).2) h0

/-- **Every step of a run does what its invocation guarantees.** -/
theorem step_guar {c0 : Config ι Op Res α σ} (h0 : Known E C S c0) (h : Run E C c0 c)
    (hs : Step E C c e c') : S.guar e.who c.store c.hist e.op e.res c'.store :=
  (known_step (run_keeps h0 h) hs).1

omit [DecidableEq ι] in
/-- The programs of the initial machine each keep the specification from the start. -/
theorem known_init {s : σ} {pool : ι → Prog Op Res α} (hinv : S.inv s [])
    (hp : ∀ i, Keeps E C S i (fun _ h => ∀ e ∈ h, e.who ≠ i) (pool i)) :
    Known E C S (Config.init s pool) :=
  ⟨hinv, fun i => ⟨fun _ h => ∀ e ∈ h, e.who ≠ i,
    fun j hj _ h _ _ _ _ _ hk e he => by
      rcases List.mem_append.mp he with he | he
      · exact hk e he
      · rw [List.mem_singleton] at he
        subst he
        exact hj,
    fun _ he => absurd he List.not_mem_nil, hp i⟩⟩

end Soundness

end Atomic
