/-
  File:      BlogDemo/TestApp/CpuLoad.lean
  Subject:   GET /cpu_load OF THE TEST APP (testapp/index.js): a loop that counts up to `load * 1e7`,
             inside a loop that ends when the clock has passed `duration` seconds.

  The clock is asked between two sweeps of the inner loop alone, and its counter is a double.

  * `sweep` -- a sweep ends, where its bound is at most 2^53; `endless` -- none ends above it;
  * **`ends_iff`** -- the handler sends its answer if and only if the outer loop is not entered, or
    the bound of the inner one is at most 2^53 and the end of the outer one is a number that a clock
    can pass.
-/
import BlogDemo.Lib.Arithmetic

namespace TestApp

open Ecma Ecma.Number

/-! ## 1. The handler -/

/-- The query strings of the request; one that is absent is `undefined`. -/
structure Query where
  load : Option String
  duration : Option String

/-- `value || otherwise`; `NaN` and zero are falsy. -/
def orElse (value : Option Number) (otherwise : Number) : Number :=
  match value with
  | some n => if n = zero then otherwise else n
  | none => otherwise

def Query.loadNumber (q : Query) : Number :=
  orElse (parseInt (q.load.getD "undefined")) (.finite (.ofNat 1))

def Query.durationNumber (q : Query) : Number :=
  orElse (parseInt (q.duration.getD "undefined")) (.finite (.ofNat 10))

/-- `load * 1e7` -/
def Query.bound (q : Query) : Number := mul (.ofNat 10000000) q.loadNumber

/-- `Date.now() + duration * 1000` -/
def Query.stop (q : Query) (now : Double) : Number := add now (mul (.ofNat 1000) q.durationNumber)

/-- `Simulated CPU load of ${load} for ${duration} seconds` -/
def Query.answer (q : Query) : Utf16.Text :=
  Utf16.text "Simulated CPU load of " ++ toText q.loadNumber ++ Utf16.text " for " ++
    toText q.durationNumber ++ Utf16.text " seconds"

/-- Where the handler is. -/
inductive Point where
  | begin
  | outer (stop : Number)
  | inner (stop i : Number)
  | sent (answer : Utf16.Text)

/-- `i++`, of a number that is finite -/
def increment : Number → Number
  | .finite i => add i (.finite (.ofNat 1))
  | .infinity negative => .infinity negative

/-- One step, at this time: the assignments before the loops, a test of a loop, or a round of the
    inner loop. -/
def Query.step (q : Query) (now : Double) : Point → Point
  | .begin => .outer (q.stop now)
  | .outer stop => if lt (.finite now) stop then .inner stop zero else .sent q.answer
  | .inner stop i => if lt i q.bound then .inner stop (increment i) else .outer stop
  | .sent answer => .sent answer

/-- Where the handler is after `n` steps; `clock n` is the time of the next one. -/
def Query.trace (q : Query) (clock : Nat → Double) : Nat → Point
  | 0 => .begin
  | n + 1 => q.step (clock n) (q.trace clock n)

/-- The handler sends its answer. -/
def Query.Ends (q : Query) (clock : Nat → Double) : Prop := ∃ n, q.trace clock n = .sent q.answer

/-- The clock passes every time, and stays beyond it. -/
def Passes (clock : Nat → Double) : Prop :=
  ∀ t : Double, ∃ n, ∀ m, n ≤ m → t.units ≤ (clock m).units

/-- The first test of the outer loop succeeds. -/
def Query.Enters (q : Query) (clock : Nat → Double) : Prop :=
  lt (.finite (clock 1)) (q.stop (clock 0)) = true

instance (q : Query) (clock : Nat → Double) : Decidable (q.Enters clock) :=
  inferInstanceAs (Decidable (_ = _))

/-! ## 2. Sweeps -/

/-- 2^53 -/
def top : Number := .finite (.ofNat (2 ^ 53))

/-- The counter after `k` rounds. -/
def count (k : Nat) (h : k ≤ 2 ^ 53) : Number := .finite (.ofNat k h)

theorem increment_count {k : Nat} (h : k < 2 ^ 53) : increment (count k h.le) = count (k + 1) h :=
  add_one h

theorem increment_top (h : 2 ^ 53 ≤ 2 ^ 53) : increment (count (2 ^ 53) h) = count (2 ^ 53) h :=
  add_one_top

section Sweep

variable {q : Query} {clock : Nat → Double} {stop : Number} {n : Nat}

theorem trace_succ (q : Query) (clock : Nat → Double) (n : Nat) :
    q.trace clock (n + 1) = q.step (clock n) (q.trace clock n) := rfl

/-- Before the end another sweep begins. -/
theorem outer_round (h : q.trace clock n = .outer stop) (hlt : lt (.finite (clock n)) stop = true) :
    q.trace clock (n + 1) = .inner stop (count 0 (Nat.zero_le _)) := by
  rw [trace_succ, h, Query.step, if_pos hlt]
  rfl

/-- At the end the answer is sent. -/
theorem outer_exit (h : q.trace clock n = .outer stop) (hlt : lt (.finite (clock n)) stop = false) :
    q.trace clock (n + 1) = .sent q.answer := by
  rw [trace_succ, h, Query.step, if_neg (by rw [hlt]; decide)]

/-- A round below the bound counts up by one. -/
theorem inner_round {k : Nat} (hk : k < 2 ^ 53)
    (h : q.trace clock n = .inner stop (count k hk.le)) (hlt : lt (count k hk.le) q.bound = true) :
    q.trace clock (n + 1) = .inner stop (count (k + 1) hk) := by
  rw [trace_succ, h, Query.step, if_pos hlt, increment_count hk]

/-- At the bound the sweep is over. -/
theorem inner_exit {i : Number} (h : q.trace clock n = .inner stop i)
    (hlt : lt i q.bound = false) : q.trace clock (n + 1) = .outer stop := by
  rw [trace_succ, h, Query.step, if_neg (by rw [hlt]; decide)]

/-- **A sweep ends**, if its bound is at most 2^53. -/
theorem sweep (hbound : lt top q.bound = false) (d : Nat) :
    ∀ (k : Nat) (hk : k ≤ 2 ^ 53), k + d = 2 ^ 53 → ∀ n,
      q.trace clock n = .inner stop (count k hk) → ∃ m, n ≤ m ∧ q.trace clock m = .outer stop := by
  induction d with
  | zero =>
    intro k hk hsum n h
    obtain rfl : k = 2 ^ 53 := hsum
    exact ⟨n + 1, by omega, inner_exit h hbound⟩
  | succ d ih =>
    intro k hk hsum n h
    cases hlt : lt (count k hk) q.bound with
    | false => exact ⟨n + 1, by omega, inner_exit h hlt⟩
    | true =>
      have hk' : k < 2 ^ 53 := by omega
      obtain ⟨m, hm, hout⟩ := ih (k + 1) hk' (by omega) (n + 1) (inner_round hk' h hlt)
      exact ⟨m, by omega, hout⟩

/-- **No sweep ends** above 2^53: the counter stays at 2^53. -/
theorem endless (hbound : lt top q.bound = true) {k : Nat} {hk : k ≤ 2 ^ 53}
    (h : q.trace clock n = .inner stop (count k hk)) (m : Nat) :
    ∃ j hj, q.trace clock (n + m) = .inner stop (count j hj) := by
  induction m with
  | zero => exact ⟨k, hk, h⟩
  | succ m ih =>
    obtain ⟨j, hj, hm⟩ := ih
    have hlt : lt (count j hj) q.bound = true := lt_of_top hj hbound
    rcases Nat.lt_or_eq_of_le hj with hj' | rfl
    · exact ⟨j + 1, hj', inner_round hj' hm hlt⟩
    · refine ⟨2 ^ 53, Nat.le_refl _, ?_⟩
      rw [← Nat.add_assoc, trace_succ, hm, Query.step, if_pos hlt, increment_top]

/-! ## 3. The outer loop -/

/-- Where the handler can be after its first step: in one of the loops, or beyond them. -/
theorem shape (q : Query) (clock : Nat → Double) (n : Nat) :
    q.trace clock (n + 1) = .outer (q.stop (clock 0)) ∨
      (∃ k hk, q.trace clock (n + 1) = .inner (q.stop (clock 0)) (count k hk)) ∨
      q.trace clock (n + 1) = .sent q.answer := by
  induction n with
  | zero => exact Or.inl rfl
  | succ n ih =>
    rcases ih with h | ⟨k, hk, h⟩ | h
    · cases hlt : lt (.finite (clock (n + 1))) (q.stop (clock 0)) with
      | true => exact Or.inr (Or.inl ⟨0, Nat.zero_le _, outer_round h hlt⟩)
      | false => exact Or.inr (Or.inr (outer_exit h hlt))
    · cases hlt : lt (count k hk) q.bound with
      | false => exact Or.inl (inner_exit h hlt)
      | true =>
        rcases Nat.lt_or_eq_of_le hk with hk' | rfl
        · exact Or.inr (Or.inl ⟨k + 1, hk', inner_round hk' h hlt⟩)
        · refine Or.inr (Or.inl ⟨2 ^ 53, hk, ?_⟩)
          rw [trace_succ, h, Query.step, if_pos hlt, increment_top]
    · refine Or.inr (Or.inr ?_)
      rw [trace_succ, h, Query.step]

/-- A time that a clock has passed stays passed. -/
theorem eventually_not_lt (hclock : Passes clock) (hstop : stop ≠ .infinity false) :
    ∃ n, ∀ m, n ≤ m → lt (.finite (clock m)) stop = false := by
  cases stop with
  | infinity negative =>
    cases negative with
    | false => exact absurd rfl hstop
    | true => exact ⟨0, fun m _ => rfl⟩
  | finite t =>
    obtain ⟨n, hn⟩ := hclock t
    refine ⟨n, fun m hm => ?_⟩
    rw [← Bool.not_eq_true, lt_finite]
    exact Int.not_lt.mpr (hn m hm)

/-- The outer loop ends, once the clock has passed its end and no sweep is endless. -/
theorem ends_of_passed (hbound : lt top q.bound = false) {n : Nat}
    (hpassed : ∀ m, n ≤ m → lt (.finite (clock m)) (q.stop (clock 0)) = false) :
    q.Ends clock := by
  have hexit : ∀ m, n ≤ m → q.trace clock m = .outer (q.stop (clock 0)) → q.Ends clock := by
    intro m hm h
    exact ⟨m + 1, outer_exit h (hpassed m hm)⟩
  rcases shape q clock n with h | ⟨k, hk, h⟩ | h
  · exact hexit (n + 1) (by omega) h
  · obtain ⟨m, hm, hout⟩ := sweep hbound (2 ^ 53 - k) k hk (by omega) (n + 1) h
    exact hexit m (by omega) hout
  · exact ⟨n + 1, h⟩

theorem ends_of_not_enters (h : ¬ q.Enters clock) : q.Ends clock :=
  ⟨2, outer_exit (n := 1) rfl (Bool.eq_false_iff.mpr h)⟩

theorem inner_of_enters (h : q.Enters clock) :
    q.trace clock 2 = .inner (q.stop (clock 0)) (count 0 (Nat.zero_le _)) :=
  outer_round (n := 1) rfl h

/-- What is sent stays sent. -/
theorem sent_later (h : q.trace clock n = .sent q.answer) (m : Nat) :
    q.trace clock (n + m) = .sent q.answer := by
  induction m with
  | zero => exact h
  | succ m ih => rw [← Nat.add_assoc, trace_succ, ih, Query.step]

/-- An endless sweep, once it has begun, keeps the handler from answering. -/
theorem not_ends_of_endless (h : q.Enters clock) (hbound : lt top q.bound = true) :
    ¬ q.Ends clock := by
  intro hends
  obtain ⟨n, hn⟩ := hends
  obtain ⟨j, hj, hinner⟩ := endless hbound (inner_of_enters h) n
  have hsent := sent_later hn 2
  rw [Nat.add_comm, hinner] at hsent
  cases hsent

/-- A clock does not pass infinity. -/
theorem not_ends_of_infinity (h : q.stop (clock 0) = .infinity false) : ¬ q.Ends clock := by
  have hloop : ∀ n, q.trace clock (n + 1) = .outer (.infinity false) ∨
      ∃ i, q.trace clock (n + 1) = .inner (.infinity false) i := by
    intro n
    induction n with
    | zero => exact Or.inl (by rw [← h]; rfl)
    | succ n ih =>
      rcases ih with hn | ⟨i, hn⟩
      · exact Or.inr ⟨_, outer_round hn rfl⟩
      · cases hlt : lt i q.bound with
        | false => exact Or.inl (inner_exit hn hlt)
        | true =>
          refine Or.inr ⟨increment i, ?_⟩
          rw [trace_succ, hn, Query.step, if_pos hlt]
  intro hends
  obtain ⟨n, hn⟩ := hends
  have hsent := sent_later hn 1
  rcases hloop n with hn' | ⟨i, hn'⟩
  · rw [hn'] at hsent
    cases hsent
  · rw [hn'] at hsent
    cases hsent

end Sweep

/-- **The handler sends its answer** if and only if the outer loop is not entered, or `load * 1e7` is
    at most 2^53 and the end of the outer loop is not infinite. -/
theorem ends_iff (q : Query) {clock : Nat → Double} (hclock : Passes clock) :
    q.Ends clock ↔ ¬ q.Enters clock ∨
      lt top q.bound = false ∧ q.stop (clock 0) ≠ .infinity false := by
  constructor
  · intro hends
    by_cases henters : q.Enters clock
    · refine Or.inr ⟨?_, fun hinf => not_ends_of_infinity hinf hends⟩
      exact Bool.eq_false_iff.mpr fun hbound => not_ends_of_endless henters hbound hends
    · exact Or.inl henters
  · intro h
    rcases h with henters | ⟨hbound, hstop⟩
    · exact ends_of_not_enters henters
    · obtain ⟨n, hn⟩ := eventually_not_lt hclock hstop
      exact ends_of_passed hbound hn

/-- A clock that jumps to the end of time after three readings. -/
def jump (n : Nat) : Double := if n < 3 then .ofNat 1750000000000 else Double.max

theorem jump_passes : Passes jump := by
  intro t
  refine ⟨3, fun m hm => ?_⟩
  rw [jump, if_neg (by omega)]
  exact t.le_max

/-- The defaults. -/
theorem ends_iff_defaults : (Query.mk none none).Ends jump :=
  (ends_iff _ jump_passes).mpr (Or.inr ⟨by decide +kernel, by decide +kernel⟩)

/-- A load of 900719926 for one second: the inner loop never ends. -/
theorem overload_not_ends : ¬ (Query.mk (some "900719926") (some "1")).Ends jump := by
  intro h
  rcases (ends_iff _ jump_passes).mp h with henters | ⟨hbound, -⟩
  · exact henters (by decide +kernel)
  · exact absurd hbound (by decide +kernel)

end TestApp
