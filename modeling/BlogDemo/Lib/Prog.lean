/-
  File:      BlogDemo/Lib/Prog.lean
  Subject:   PROGRAMS OF ATOMIC CALLS. A program computes in memory and issues calls to a shared
             service, one at a time; each call takes effect at once and answers.

  * `Prog Op Res α` -- the program: an answer, or one call and what to do with its answer;
  * `Effect`, `Faulty` -- what a call may do: its nominal effect, or a fault before or after it;
  * `Exec` -- one uninterrupted run, with the list of calls it made and their answers;
    `Prog.run` -- the same run where every call has exactly one effect;
  * `Prog.Issues` -- every call a program can make, whatever it is answered;
    `Prog.Meets` -- its calls and its answer, when it is answered as assumed;
  * `Prog.Stops` -- a program that ends at its first failed call;
  * `Footprint` -- a state change that reads and writes inside a set of locations; two of them
    with disjoint sets commute (`Footprint.comm`), and a program whose calls all stay inside a
    set is one (`Prog.run_footprint`).
-/
import Mathlib.Data.Set.Defs
import Mathlib.Logic.Function.Basic

namespace Atomic

/-- **A program of atomic calls**: `Op` are the calls, `Res op` the answers to `op`. -/
inductive Prog (Op : Type) (Res : Op → Type) (α : Type) where
  | ret (a : α)
  | call (op : Op) (next : Res op → Prog Op Res α)

variable {Op : Type} {Res : Op → Type} {α β σ : Type}

namespace Prog

/-- Run `p`, then what `f` makes of its answer. -/
def bind : Prog Op Res α → (α → Prog Op Res β) → Prog Op Res β
  | .ret a, f => f a
  | .call op next, f => .call op fun r => (next r).bind f

instance : Monad (Prog Op Res) where
  pure := .ret
  bind := bind

@[simp] theorem pure_eq (a : α) : (pure a : Prog Op Res α) = .ret a := rfl

@[simp] theorem ret_bind (a : α) (f : α → Prog Op Res β) : (Prog.ret a >>= f) = f a := rfl

@[simp] theorem call_bind (op : Op) (next : Res op → Prog Op Res α) (f : α → Prog Op Res β) :
    (Prog.call op next >>= f) = .call op fun r => next r >>= f := rfl

theorem bind_ret (p : Prog Op Res α) : p.bind .ret = p := by
  induction p with
  | ret a => rfl
  | call op next ih => exact congrArg (call op) (funext ih)

theorem bind_bind {γ : Type} (p : Prog Op Res α) (f : α → Prog Op Res β) (g : β → Prog Op Res γ) :
    (p.bind f).bind g = p.bind fun a => (f a).bind g := by
  induction p with
  | ret a => rfl
  | call op next ih => exact congrArg (call op) (funext ih)

instance : LawfulMonad (Prog Op Res) :=
  LawfulMonad.mk' _ bind_ret (fun _ _ => rfl) bind_bind

/-- The program makes no call any more. -/
def Final (p : Prog Op Res α) : Prop := ∃ a, p = .ret a

theorem final_ret (a : α) : Final (.ret a : Prog Op Res α) := ⟨a, rfl⟩

/-- One call, answered as it is. -/
def send (op : Op) : Prog Op Res (Res op) := .call op .ret

@[simp] theorem send_bind (op : Op) (f : Res op → Prog Op Res β) :
    (send op >>= f) = .call op f := rfl

/-- `try { body } catch (err) { handle(err) }`. -/
def catching {ε : Type} (body : ExceptT ε (Prog Op Res) α) (handle : ε → α) : Prog Op Res α :=
  body.run >>= fun r => match r with
    | .ok a => .ret a
    | .error e => .ret (handle e)

section Catching

variable {ε : Type}

@[simp] theorem catching_pure (a : α) (handle : ε → α) :
    catching (pure a : ExceptT ε (Prog Op Res) α) handle = .ret a := rfl

@[simp] theorem catching_throw (e : ε) (handle : ε → α) :
    catching (throw e : ExceptT ε (Prog Op Res) α) handle = .ret (handle e) := rfl

@[simp] theorem catching_throw_bind (e : ε) (f : β → ExceptT ε (Prog Op Res) α) (handle : ε → α) :
    catching (throw e >>= f) handle = .ret (handle e) := rfl

/-- A computation in memory inside a `try` block. -/
@[simp] theorem catching_lift (r : Except ε β) (f : β → ExceptT ε (Prog Op Res) α)
    (handle : ε → α) :
    catching (liftM r >>= f) handle = match r with
      | .ok b => catching (f b) handle
      | .error e => .ret (handle e) := by
  cases r <;> rfl

@[simp] theorem catching_ite {c : Prop} [Decidable c] (p q : ExceptT ε (Prog Op Res) α)
    (handle : ε → α) :
    catching (if c then p else q) handle = if c then catching p handle else catching q handle :=
  apply_ite (catching · handle) c p q

/-- A call inside a `try` block: what it rejects with is handled. -/
@[simp] theorem catching_send {A : Op → Type} (op : Op)
    (f : A op → ExceptT ε (Prog Op fun op => Except ε (A op)) α) (handle : ε → α) :
    catching (ExceptT.mk (send op) >>= f) handle = .call op fun r => match r with
      | .ok x => catching (f x) handle
      | .error e => .ret (handle e) := by
  refine congrArg (call op) (funext fun r => ?_)
  cases r <;> rfl

end Catching

end Prog

/-! ## 1. What a call may do -/

/-- What a call may do: the state before, the answer and the state after. -/
abbrev Effect (Op : Type) (Res : Op → Type) (σ : Type) := (op : Op) → σ → Res op → σ → Prop

/-- A call made once: the operation and its answer. -/
structure Made (Op : Type) (Res : Op → Type) where
  op : Op
  res : Res op

/-- The nominal effect of every call. -/
abbrev Apply (Op : Type) (Res : Op → Type) (σ : Type) := (op : Op) → σ → Res op × σ

/-- **An unreliable service**: a call has its nominal effect and answer, or answers a fault and
    does nothing (`refused`), or takes effect and its answer is lost (`lost`). -/
inductive Faulty (f : Apply Op Res σ) (fault : (op : Op) → Res op → Prop) (op : Op) (s : σ) :
    Res op → σ → Prop where
  | done : Faulty f fault op s (f op s).1 (f op s).2
  | refused (r : Res op) (h : fault op r) : Faulty f fault op s r s
  | lost (r : Res op) (h : fault op r) : Faulty f fault op s r (f op s).2

/-- Whatever happens, the state is the old one or the one after the nominal effect. -/
theorem Faulty.state {f : Apply Op Res σ} {fault : (op : Op) → Res op → Prop} {op : Op} {s s' : σ}
    {r : Res op} (h : Faulty f fault op s r s') : s' = s ∨ s' = (f op s).2 := by
  cases h with
  | done => exact Or.inr rfl
  | refused => exact Or.inl rfl
  | lost => exact Or.inr rfl

/-- A call is answered nominally, or a fault, with or without its effect. -/
theorem Faulty.answer {f : Apply Op Res σ} {fault : (op : Op) → Res op → Prop} {op : Op} {s s' : σ}
    {r : Res op} (h : Faulty f fault op s r s') :
    r = (f op s).1 ∧ s' = (f op s).2 ∨ (s' = s ∨ s' = (f op s).2) ∧ fault op r := by
  cases h with
  | done => exact Or.inl ⟨rfl, rfl⟩
  | refused r h => exact Or.inr ⟨Or.inl rfl, h⟩
  | lost r h => exact Or.inr ⟨Or.inr rfl, h⟩

/-- An answer that is no fault is the nominal one, and so is the state. -/
theorem Faulty.of_not_fault {f : Apply Op Res σ} {fault : (op : Op) → Res op → Prop} {op : Op}
    {s s' : σ} {r : Res op} (h : Faulty f fault op s r s') (hr : ¬ fault op r) :
    r = (f op s).1 ∧ s' = (f op s).2 :=
  h.answer.resolve_right fun hf => hr hf.2

/-! ## 2. Uninterrupted runs -/

/-- **One uninterrupted run** of a program: the calls it made, its answer and the state after. -/
inductive Exec (E : Effect Op Res σ) :
    Prog Op Res α → σ → List (Made Op Res) → α → σ → Prop where
  | ret (a : α) (s : σ) : Exec E (.ret a) s [] a s
  | call {op : Op} {next : Res op → Prog Op Res α} {s s' s'' : σ} {r : Res op}
      {es : List (Made Op Res)} {a : α} (he : E op s r s') (h : Exec E (next r) s' es a s'') :
      Exec E (.call op next) s (⟨op, r⟩ :: es) a s''

/-- The run in which every call has its nominal effect. -/
def Prog.run (f : Apply Op Res σ) : Prog Op Res α → σ → List (Made Op Res) × α × σ
  | .ret a, s => ([], a, s)
  | .call op next, s =>
    let (es, a, s') := (next (f op s).1).run f (f op s).2
    (⟨op, (f op s).1⟩ :: es, a, s')

namespace Prog

@[simp] theorem run_ret (f : Apply Op Res σ) (a : α) (s : σ) :
    (Prog.ret a : Prog Op Res α).run f s = ([], a, s) := rfl

@[simp] theorem run_call (f : Apply Op Res σ) (op : Op) (next : Res op → Prog Op Res α) (s : σ) :
    (Prog.call op next).run f s =
      (⟨op, (f op s).1⟩ :: ((next (f op s).1).run f (f op s).2).1,
        ((next (f op s).1).run f (f op s).2).2) := rfl

/-- The nominal run of two programs in sequence. -/
theorem run_bind (f : Apply Op Res σ) (p : Prog Op Res α) (g : α → Prog Op Res β) (s : σ) :
    (p >>= g).run f s = ((p.run f s).1 ++ ((g (p.run f s).2.1).run f (p.run f s).2.2).1,
      ((g (p.run f s).2.1).run f (p.run f s).2.2).2) := by
  induction p generalizing s with
  | ret a => rfl
  | call op next ih =>
      rw [call_bind, run_call, run_call, ih]
      rfl

/-- Every call a program can make satisfies `P`, whatever its calls are answered. -/
def Issues (P : Op → Prop) : Prog Op Res α → Prop
  | .ret _ => True
  | .call op next => P op ∧ ∀ r, (next r).Issues P

variable {P : Op → Prop} {op : Op} {p : Prog Op Res α} {f : α → Prog Op Res β}

@[simp] theorem issues_ret (a : α) : (Prog.ret a : Prog Op Res α).Issues P := trivial

theorem issues_send (h : P op) : (send op : Prog Op Res (Res op)).Issues P :=
  ⟨h, fun _ => trivial⟩

theorem Issues.mono {P' : Op → Prop} (hp : p.Issues P) (h : ∀ op, P op → P' op) : p.Issues P' := by
  induction p with
  | ret a => trivial
  | call op next ih => exact ⟨h op hp.1, fun r => ih r (hp.2 r)⟩

/-- The calls of a program, then those of what follows its answer. -/
theorem Issues.bind (hp : p.Issues P) (hf : ∀ a, (f a).Issues P) : (p >>= f).Issues P := by
  induction p with
  | ret a => exact hf a
  | call op next ih => exact ⟨hp.1, fun r => ih r (hp.2 r)⟩

/-- **Assume and guarantee**: as long as the answers are as `answers` assumes, every call satisfies
    `issue`, and the result satisfies `P`. -/
def Meets (issue : Op → Prop) (answers : (op : Op) → Res op → Prop) (P : α → Prop) :
    Prog Op Res α → Prop
  | .ret a => P a
  | .call op next => issue op ∧ ∀ r, answers op r → (next r).Meets issue answers P

@[simp] theorem meets_ret (issue : Op → Prop) (answers : (op : Op) → Res op → Prop)
    (P : α → Prop) (a : α) :
    (Prog.ret a : Prog Op Res α).Meets issue answers P ↔ P a := Iff.rfl

end Prog

section Runs

variable {E : Effect Op Res σ} {f : Apply Op Res σ} {p : Prog Op Res α}
  {s s' : σ} {es : List (Made Op Res)} {a : α}

theorem exec_ret {b : α} (h : Exec E (.ret b) s es a s') : es = [] ∧ a = b ∧ s' = s := by
  cases h
  exact ⟨rfl, rfl, rfl⟩

theorem exec_call {op : Op} {next : Res op → Prog Op Res α}
    (h : Exec E (.call op next) s es a s') : ∃ r s₁ es', es = ⟨op, r⟩ :: es' ∧ E op s r s₁ ∧
      Exec E (next r) s₁ es' a s' := by
  cases h with
  | call he h => exact ⟨_, _, _, rfl, he, h⟩

/-- A run of two programs in sequence is a run of each. -/
theorem exec_bind {f : α → Prog Op Res β} {b : β} (h : Exec E (p >>= f) s es b s') :
    ∃ es₁ a s₁ es₂, es = es₁ ++ es₂ ∧ Exec E p s es₁ a s₁ ∧ Exec E (f a) s₁ es₂ b s' := by
  induction p generalizing s es with
  | ret a => exact ⟨[], a, s, es, rfl, .ret a s, h⟩
  | call op next ih =>
      obtain ⟨r, s₁, es', rfl, he, hnext⟩ := exec_call h
      obtain ⟨es₁, a, s₂, es₂, rfl, h₁, h₂⟩ := ih r hnext
      exact ⟨⟨op, r⟩ :: es₁, a, s₂, es₂, rfl, .call he h₁, h₂⟩

/-- Runs of two programs, one after the other, are a run of them in sequence. -/
theorem Exec.bind {f : α → Prog Op Res β} {es' : List (Made Op Res)} {b : β} {s'' : σ}
    (h : Exec E p s es a s') (h' : Exec E (f a) s' es' b s'') :
    Exec E (p >>= f) s (es ++ es') b s'' := by
  induction h with
  | ret a s => exact h'
  | call he h ih => exact .call he (ih h')

/-- The nominal run is a run, of every effect that allows the nominal one. -/
theorem exec_run (hE : ∀ op s, E op s (f op s).1 (f op s).2) (p : Prog Op Res α) (s : σ) :
    Exec E p s (p.run f s).1 (p.run f s).2.1 (p.run f s).2.2 := by
  induction p generalizing s with
  | ret a => exact .ret a s
  | call op next ih => exact .call (hE op s) (ih (f op s).1 (f op s).2)

/-- A run whose calls were all answered nominally is the nominal run. -/
theorem Exec.eq_run (h : Exec E p s es a s') {good : Made Op Res → Prop}
    (hgood : ∀ op s r s', E op s r s' → good ⟨op, r⟩ → r = (f op s).1 ∧ s' = (f op s).2)
    (hes : ∀ e ∈ es, good e) : (es, a, s') = p.run f s := by
  induction h with
  | ret a s => rfl
  | call he h ih =>
      obtain ⟨rfl, rfl⟩ := hgood _ _ _ _ he (hes _ List.mem_cons_self)
      have ih' := ih fun e h => hes e (List.mem_cons_of_mem _ h)
      rw [Prog.run_call, ← ih']

/-- The calls of a run are among those the program can make. -/
theorem Exec.issues {P : Op → Prop} (h : Exec E p s es a s') (hp : p.Issues P) :
    ∀ e ∈ es, P e.op := by
  induction h with
  | ret a s => exact fun e h => absurd h List.not_mem_nil
  | call he h ih =>
      intro e hmem
      rcases List.mem_cons.mp hmem with rfl | hmem
      · exact hp.1
      · exact ih (hp.2 _) e hmem

/-- The answer of a run whose calls were answered as assumed. -/
theorem Exec.meets {issue : Op → Prop} {answers : (op : Op) → Res op → Prop} {P : α → Prop}
    (h : Exec E p s es a s') (hp : p.Meets issue answers P) (hes : ∀ e ∈ es, answers e.op e.res) :
    P a := by
  induction h with
  | ret a s => exact hp
  | call he h ih =>
      have hr := hes _ List.mem_cons_self
      exact ih (hp.2 _ hr) fun e hmem => hes e (List.mem_cons_of_mem _ hmem)

end Runs

/-! ## 3. Programs that stop at the first failure -/

section Failing

variable {ε : Type} {A : Op → Type} {handle : ε → α} {good : α → Prop}

/-- **A failed call ends the program** with what `handle` makes of its error; when every call was
    answered, the result satisfies `good`. -/
def Prog.Stops (handle : ε → α) (good : α → Prop) : Prog Op (fun op => Except ε (A op)) α → Prop
  | .ret a => good a
  | .call _ next => (∀ e, next (.error e) = .ret (handle e)) ∧
      ∀ x, (next (.ok x)).Stops handle good

/-- The calls were all answered, or the last one failed and gave the result. -/
theorem Exec.stops {E : Effect Op (fun op => Except ε (A op)) σ}
    {p : Prog Op (fun op => Except ε (A op)) α} {s s' : σ}
    {es : List (Made Op fun op => Except ε (A op))} {a : α} (h : Exec E p s es a s')
    (hp : p.Stops handle good) :
    (∀ m ∈ es, ∃ x, m.res = .ok x) ∧ good a ∨
      ∃ es' op e, es = es' ++ [⟨op, .error e⟩] ∧ (∀ m ∈ es', ∃ x, m.res = .ok x) ∧
        a = handle e := by
  induction h with
  | ret a s => exact Or.inl ⟨fun _ h => absurd h List.not_mem_nil, hp⟩
  | @call op next s s₁ s₂ r es a he h ih =>
      cases r with
      | error e =>
          rw [hp.1 e] at h
          obtain ⟨rfl, rfl, -⟩ := exec_ret h
          exact Or.inr ⟨[], op, e, rfl, fun _ h => absurd h List.not_mem_nil, rfl⟩
      | ok x =>
          rcases ih (hp.2 x) with ⟨hes, ha⟩ | ⟨es', op', e, rfl, hes, ha⟩
          · exact Or.inl ⟨List.forall_mem_cons.mpr ⟨⟨x, rfl⟩, hes⟩, ha⟩
          · exact Or.inr ⟨⟨op, .ok x⟩ :: es', op', e, rfl,
              List.forall_mem_cons.mpr ⟨⟨x, rfl⟩, hes⟩, ha⟩

end Failing

/-! ## 4. Footprints -/

section Footprint

variable {Loc V : Type} {read : σ → Loc → V} {F G : Set Loc} {t u : σ → σ}

/-- **The state change `t` stays inside `F`**: every other location keeps its value, and the new
    values inside `F` depend on the old values inside `F` only. -/
structure Footprint (read : σ → Loc → V) (F : Set Loc) (t : σ → σ) : Prop where
  frame : ∀ s l, l ∉ F → read (t s) l = read s l
  inside : ∀ s s', (∀ l ∈ F, read s l = read s' l) → ∀ l ∈ F, read (t s) l = read (t s') l

/-- **Changes with disjoint footprints commute.** -/
theorem Footprint.comm (ht : Footprint read F t) (hu : Footprint read G u)
    (hd : ∀ l ∈ F, l ∉ G) (hext : ∀ s s' : σ, (∀ l, read s l = read s' l) → s = s') (s : σ) :
    t (u s) = u (t s) := by
  have inF : ∀ s l, l ∈ F → read (t (u s)) l = read (t s) l := fun s l hl =>
    ht.inside (u s) s (fun l hl => hu.frame s l (hd l hl)) l hl
  have inG : ∀ s l, l ∈ G → read (u (t s)) l = read (u s) l := fun s l hl =>
    hu.inside (t s) s (fun l hl => ht.frame s l (fun hF => hd l hF hl)) l hl
  refine hext _ _ fun l => ?_
  by_cases hF : l ∈ F
  · rw [inF s l hF, hu.frame (t s) l (hd l hF)]
  · rw [ht.frame (u s) l hF]
    by_cases hG : l ∈ G
    · rw [inG s l hG]
    · rw [hu.frame s l hG, hu.frame (t s) l hG, ht.frame s l hF]

/-- A call stays inside `F`: its state change does, and its answer reads `F` only. -/
structure CallFootprint (f : Apply Op Res σ) (read : σ → Loc → V) (F : Set Loc) (op : Op) :
    Prop where
  change : Footprint read F fun s => (f op s).2
  answer : ∀ s s', (∀ l ∈ F, read s l = read s' l) → (f op s).1 = (f op s').1

/-- A call that only reads, and its answer reads `F` only. -/
theorem CallFootprint.of_read {f : Apply Op Res σ} {op : Op} (hsame : ∀ s, (f op s).2 = s)
    (hanswer : ∀ s s', (∀ l ∈ F, read s l = read s' l) → (f op s).1 = (f op s').1) :
    CallFootprint f read F op where
  change.frame s l _ := by rw [hsame]
  change.inside s s' h l hl := by rw [hsame, hsame]; exact h l hl
  answer := hanswer

/-- **A program whose calls all stay inside `F` stays inside `F`**, and on states that agree
    there it makes the same calls and gives the same answer. -/
theorem Prog.run_footprint {f : Apply Op Res σ} {p : Prog Op Res α}
    (hp : p.Issues (CallFootprint f read F)) :
    Footprint read F (fun s => (p.run f s).2.2) ∧
      ∀ s s', (∀ l ∈ F, read s l = read s' l) → (p.run f s).2.1 = (p.run f s').2.1 := by
  induction p with
  | ret a => exact ⟨⟨fun _ _ _ => rfl, fun _ _ h => h⟩, fun _ _ _ => rfl⟩
  | call op next ih =>
      obtain ⟨hop, hnext⟩ := hp
      refine ⟨⟨fun s l hl => ?_, fun s s' hs l hl => ?_⟩, fun s s' hs => ?_⟩
      · show read ((next (f op s).1).run f (f op s).2).2.2 l = read s l
        rw [(ih _ (hnext _)).1.frame _ l hl, hop.change.frame s l hl]
      · show read ((next (f op s).1).run f (f op s).2).2.2 l =
          read ((next (f op s').1).run f (f op s').2).2.2 l
        rw [hop.answer s s' hs]
        exact (ih _ (hnext _)).1.inside _ _ (hop.change.inside s s' hs) l hl
      · show ((next (f op s).1).run f (f op s).2).2.1 = ((next (f op s').1).run f (f op s').2).2.1
        rw [hop.answer s s' hs]
        exact (ih _ (hnext _)).2 _ _ (hop.change.inside s s' hs)

end Footprint

end Atomic
