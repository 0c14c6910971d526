/-
  File:      BlogDemo/Lib/Behaviour.lean
  Subject:   BEHAVIOURS: infinite sequences of states, and what holds in them from some time on.

  * **`stays`** -- what every step keeps, and what holds again and again, holds from some time on;
  * **`drains`** -- what never grows, and gets less again and again while there is some, runs out;
  * **`comes_to_rest`** -- a value that a step leaves, or makes one that no step changes, is the same
    from some time on;
  * `last_before` -- the last time at which something holds that ends;
  * **`simulated`** -- a behaviour that is simulated step by step has an abstract one at its side.
-/
import Mathlib.Order.Filter.AtTopBot.Basic

namespace Behaviour

open Filter

variable {α β : Type}

/-- **What is kept, and holds again and again**, holds from some time on. -/
theorem stays {I P : Nat → Prop} (hI : ∀ᶠ n in atTop, I n) (hP : ∃ᶠ n in atTop, P n)
    (hkeep : ∀ n, I n → P n → P (n + 1)) : ∀ᶠ n in atTop, P n := by
  obtain ⟨n₀, hn₀⟩ := eventually_atTop.mp hI
  obtain ⟨n₁, hle, hn₁⟩ := frequently_atTop.mp hP n₀
  refine eventually_atTop.mpr ⟨n₁, fun n hn => ?_⟩
  induction n, hn using Nat.le_induction with
  | base => exact hn₁
  | succ n hn ih => exact hkeep n (hn₀ n (hle.trans hn)) ih

/-- **What never grows, and gets less again and again while there is some**, runs out. -/
theorem drains {f : Nat → Nat} (hmono : ∀ᶠ n in atTop, f (n + 1) ≤ f n)
    (hless : ∀ᶠ n in atTop, f n ≠ 0 → ∃ m, n ≤ m ∧ (f m ≠ 0 → f (m + 1) < f m)) :
    ∀ᶠ n in atTop, f n = 0 := by
  obtain ⟨n₀, hn₀⟩ := eventually_atTop.mp (hmono.and hless)
  have hanti : ∀ n m, n₀ ≤ n → n ≤ m → f m ≤ f n := by
    intro n m hn hm
    induction m, hm using Nat.le_induction with
    | base => exact Nat.le_refl _
    | succ m hm ih => exact ((hn₀ m (hn.trans hm)).1).trans ih
  -- by induction on how much there may be left
  have hzero : ∀ b n, n₀ ≤ n → f n ≤ b → ∃ m, n ≤ m ∧ f m = 0 := by
    intro b
    induction b with
    | zero => exact fun n _ hb => ⟨n, Nat.le_refl n, Nat.le_zero.mp hb⟩
    | succ b ih =>
        intro n hn hb
        by_cases hfn : f n = 0
        · exact ⟨n, Nat.le_refl n, hfn⟩
        · obtain ⟨m, hnm, hlt⟩ := (hn₀ n hn).2 hfn
          have hfm := hanti n m hn hnm
          by_cases hzero : f m = 0
          · exact ⟨m, hnm, hzero⟩
          · have hlt' := hlt hzero
            obtain ⟨m', hm', hzero'⟩ := ih (m + 1) (by omega) (by omega)
            exact ⟨m', by omega, hzero'⟩
  obtain ⟨m, hm, hfm⟩ := hzero (f n₀) n₀ (Nat.le_refl _) (Nat.le_refl _)
  exact eventually_atTop.mpr ⟨m, fun n hn => Nat.le_zero.mp (hfm ▸ hanti m n hm hn)⟩

/-- **A value that a step leaves, or makes one that no step changes**, is the same from some time
    on. -/
theorem comes_to_rest {x : Nat → α} {G : α → Prop}
    (hstep : ∀ᶠ n in atTop, x (n + 1) = x n ∨ G (x (n + 1)))
    (hgood : ∀ᶠ n in atTop, G (x n) → x (n + 1) = x n) : ∃ a, ∀ᶠ n in atTop, x n = a := by
  obtain ⟨n₀, hn₀⟩ := eventually_atTop.mp (hstep.and hgood)
  by_cases h : ∃ n, n₀ ≤ n ∧ G (x n)
  · obtain ⟨n₁, hle, hn₁⟩ := h
    refine ⟨x n₁, eventually_atTop.mpr ⟨n₁, fun n hn => ?_⟩⟩
    induction n, hn using Nat.le_induction with
    | base => rfl
    | succ n hn ih => rw [(hn₀ n (hle.trans hn)).2 (ih ▸ hn₁), ih]
  · refine ⟨x n₀, eventually_atTop.mpr ⟨n₀, fun n hn => ?_⟩⟩
    induction n, hn using Nat.le_induction with
    | base => rfl
    | succ n hn ih =>
        rcases (hn₀ n hn).1 with heq | hg
        · rw [heq, ih]
        · exact absurd ⟨n + 1, by omega, hg⟩ h

/-- What ends, ends with a step. -/
theorem last_before {P : Nat → Prop} {n n' : Nat} (hn : n ≤ n') (h : P n) (h' : ¬ P n') :
    ∃ m, n ≤ m ∧ P m ∧ ¬ P (m + 1) := by
  by_contra hno
  refine h' ?_
  induction n', hn using Nat.le_induction with
  | base => exact h
  | succ n' hn' ih =>
      have hP : P n' := by
        by_contra hnot
        exact hnot (ih hnot)
      by_contra hnot
      exact hno ⟨n', hn', hP, hnot⟩

/-- **A behaviour that is simulated step by step** has an abstract one at its side. -/
theorem simulated {σ : Nat → α} {R : α → β → Prop} {T : β → β → Prop} {b : β} (h₀ : R (σ 0) b)
    (hstep : ∀ n b, R (σ n) b → ∃ b', R (σ (n + 1)) b' ∧ T b b') :
    ∃ τ : Nat → β, (∀ n, R (σ n) (τ n)) ∧ ∀ n, T (τ n) (τ (n + 1)) := by
  choose next hnext using fun (n : Nat) (s : { b // R (σ n) b }) => hstep n s.1 s.2
  let τ : (n : Nat) → { b // R (σ n) b } :=
    fun n => Nat.rec ⟨b, h₀⟩ (fun n s => ⟨next n s, (hnext n s).1⟩) n
  exact ⟨fun n => (τ n).1, fun n => (τ n).2, fun n => (hnext n (τ n)).2⟩

end Behaviour
