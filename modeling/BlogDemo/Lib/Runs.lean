/-
  File:      BlogDemo/Lib/Runs.lean
  Subject:   RUNS OF A STEP FUNCTION: any number of steps, each by an action of its own.

  * `Run` -- the states that steps meeting a condition lead to; `Run.invariant` -- what every step
    preserves holds in all of them;
  * `script` -- the state after given actions, computed; `script_run` -- there is a run to it.
-/

namespace Runs

variable {W A : Type} {step : W → A → Option W} {C C' : W → A → Prop} {w₀ w w' : W}

/-- **A run** of steps that meet the condition `C`. -/
inductive Run (step : W → A → Option W) (C : W → A → Prop) (w₀ : W) : W → Prop where
  | start : Run step C w₀ w₀
  | step {w w' : W} {a : A} (h : Run step C w₀ w) (hc : C w a) (hs : step w a = some w') :
      Run step C w₀ w'

/-- Every step is let through. -/
def free : W → A → Prop := fun _ _ => True

theorem Run.mono (hC : ∀ w a, C w a → C' w a) (h : Run step C w₀ w) : Run step C' w₀ w := by
  induction h with
  | start => exact .start
  | step _ hc hs ih => exact .step ih (hC _ _ hc) hs

/-- **What holds at the start and is preserved by every step** holds in every state of the run. -/
theorem Run.invariant {I : W → Prop} (h : Run step C w₀ w) (h₀ : I w₀)
    (hstep : ∀ {w a w'}, Run step C w₀ w → I w → C w a → step w a = some w' → I w') : I w := by
  induction h with
  | start => exact h₀
  | step h hc hs ih => exact hstep h ih hc hs

/-- The state after these actions, if each is possible and meets the condition. -/
def script (step : W → A → Option W) (c : W → A → Bool) : List A → W → Option W
  | [], w => some w
  | a :: as, w => if c w a then (step w a).bind (script step c as) else none

theorem script_run {c : W → A → Bool} {as : List A}
    (h : Run step (fun w a => c w a = true) w₀ w) (hs : script step c as w = some w') :
    Run step (fun w a => c w a = true) w₀ w' := by
  induction as generalizing w with
  | nil =>
      cases hs
      exact h
  | cons a as ih =>
      rw [script] at hs
      split at hs
      · rename_i hc
        obtain ⟨w₁, hstep, hrest⟩ := Option.bind_eq_some_iff.mp hs
        exact ih (.step h hc hstep) hrest
      · cases hs

/-- A script without conditions is a run. -/
theorem script_free {as : List A} (hs : script step (fun _ _ => true) as w₀ = some w) :
    Run step free w₀ w :=
  (script_run .start hs).mono fun _ _ _ => trivial

end Runs
