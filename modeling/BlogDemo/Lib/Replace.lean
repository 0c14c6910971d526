/-
  File:      BlogDemo/Lib/Replace.lean
  Subject:   REPLACING THE MATCHES OF A REGULAR EXPRESSION, for expressions of one shape: a separator,
             then at least so many characters of a kind, and as many as there are.

  All matches are replaced, from left to right; what has been put in is not looked at again. A text is
  what stands before its first separator, and the segments after each of them (`cut`, `join`).

  * `cut_join`, `join_cut` -- the two are inverse to each other;
  * **`replace_join`** -- an expression whose kind is without the separator replaces segment by
    segment.
-/
import Mathlib.Data.List.TakeWhile

namespace Replace

variable {α : Type}

/-! ## 1. Segments -/

def join (sep : α) (first : List α) (segments : List (List α)) : List α :=
  first ++ segments.flatMap (sep :: ·)

section Cut

variable {sep : α} {first : List α} {segments : List (List α)}

@[simp] theorem join_nil : join sep first [] = first := List.append_nil _

theorem join_cons (s : List α) :
    join sep first (s :: segments) = first ++ sep :: join sep s segments := by
  simp only [join, List.flatMap_cons, List.cons_append]

variable [DecidableEq α]

/-- What stands before the first separator, and the segments after it. -/
def cut (sep : α) : List α → List α × List (List α)
  | [] => ([], [])
  | c :: cs => if c = sep then ([], (cut sep cs).1 :: (cut sep cs).2)
    else (c :: (cut sep cs).1, (cut sep cs).2)

theorem join_cut (sep : α) (cs : List α) : join sep (cut sep cs).1 (cut sep cs).2 = cs := by
  induction cs with
  | nil => rfl
  | cons c cs ih =>
    by_cases hc : c = sep
    · rw [cut, if_pos hc, join_cons, ih, hc]
      rfl
    · rw [cut, if_neg hc]
      show c :: join sep (cut sep cs).1 (cut sep cs).2 = c :: cs
      rw [ih]

/-- No separator is left in what was cut. -/
theorem sep_cut (sep : α) (cs : List α) :
    sep ∉ (cut sep cs).1 ∧ ∀ s ∈ (cut sep cs).2, sep ∉ s := by
  induction cs with
  | nil => exact ⟨List.not_mem_nil, fun s hs => absurd hs List.not_mem_nil⟩
  | cons c cs ih =>
    by_cases hc : c = sep
    · rw [cut, if_pos hc]
      exact ⟨List.not_mem_nil, List.forall_mem_cons.mpr ih⟩
    · rw [cut, if_neg hc]
      refine ⟨fun hmem => ?_, ih.2⟩
      rcases List.mem_cons.mp hmem with heq | hmem
      · exact hc heq.symm
      · exact ih.1 hmem

theorem cut_append (hfirst : sep ∉ first) (cs : List α) :
    cut sep (first ++ cs) = (first ++ (cut sep cs).1, (cut sep cs).2) := by
  induction first with
  | nil => rfl
  | cons c first ih =>
    obtain ⟨hc, hrest⟩ := not_or.mp (mt List.mem_cons.mpr hfirst)
    rw [List.cons_append, cut, if_neg (fun h => hc h.symm), ih hrest]
    rfl

theorem cut_join (hfirst : sep ∉ first) (hsegments : ∀ s ∈ segments, sep ∉ s) :
    cut sep (join sep first segments) = (first, segments) := by
  induction segments generalizing first with
  | nil =>
    rw [join_nil, ← List.append_nil first, cut_append (by simpa using hfirst)]
    rfl
  | cons s segments ih =>
    obtain ⟨hs, hrest⟩ := List.forall_mem_cons.mp hsegments
    rw [join_cons, cut_append hfirst, cut, if_pos rfl, ih hs hrest, List.append_nil]

end Cut

/-! ## 2. Replacing -/

/-- The expression `sep[kind]{min,}`. -/
structure Expr (α : Type) where
  sep : α
  kind : α → Bool
  min : Nat

/-- What becomes of a segment. -/
def Expr.segment (e : Expr α) (new : List α) (s : List α) : List α :=
  if e.min ≤ (s.takeWhile e.kind).length then new ++ s.dropWhile e.kind else s

/-- What of a kind stands before a separator stands in the segment. -/
theorem takeWhile_join {e : Expr α} (hkind : e.kind e.sep = false) (s : List α)
    (segments : List (List α)) :
    (join e.sep s segments).takeWhile e.kind = s.takeWhile e.kind := by
  induction s with
  | nil =>
    cases segments with
    | nil => rfl
    | cons s segments =>
      rw [join_cons, List.nil_append]
      exact List.takeWhile_cons_of_neg (by rw [hkind]; decide)
  | cons c s ih =>
    have hjoin : join e.sep (c :: s) segments = c :: join e.sep s segments := rfl
    rw [hjoin, List.takeWhile_cons, List.takeWhile_cons, ih]

variable [DecidableEq α]

/-- How many characters follow the separator in a match that begins here. -/
def Expr.matched (e : Expr α) (c : α) (cs : List α) : Option Nat :=
  if c = e.sep ∧ e.min ≤ (cs.takeWhile e.kind).length then some (cs.takeWhile e.kind).length else none

/-- The text with its matches replaced; the first `skip` characters belong to the last match. -/
def Expr.scan (e : Expr α) (new : List α) : Nat → List α → List α
  | _, [] => []
  | skip + 1, _ :: cs => e.scan new skip cs
  | 0, c :: cs =>
    match e.matched c cs with
    | some n => new ++ e.scan new n cs
    | none => c :: e.scan new 0 cs

/-- `replace(text, expression, new)` -/
def Expr.replace (e : Expr α) (new : List α) (cs : List α) : List α := e.scan new 0 cs

section Scan

variable {e : Expr α} (new : List α)

theorem scan_skip (n : Nat) (cs : List α) : e.scan new n cs = e.scan new 0 (cs.drop n) := by
  induction cs generalizing n with
  | nil => cases n <;> rfl
  | cons c cs ih =>
    cases n with
    | zero => rfl
    | succ n => exact ih n

/-- Without a separator nothing is matched. -/
theorem scan_append {s : List α} (h : e.sep ∉ s) (cs : List α) :
    e.scan new 0 (s ++ cs) = s ++ e.scan new 0 cs := by
  induction s with
  | nil => rfl
  | cons c s ih =>
    obtain ⟨hc, hrest⟩ := not_or.mp (mt List.mem_cons.mpr h)
    have hnone : e.matched c (s ++ cs) = none := if_neg fun hm => hc hm.1.symm
    rw [List.cons_append, Expr.scan, hnone]
    exact congrArg (c :: ·) (ih hrest)

/-- **Replacing works segment by segment.** -/
theorem replace_join (hkind : e.kind e.sep = false) {first : List α} {segments : List (List α)}
    (hfirst : e.sep ∉ first) (hsegments : ∀ s ∈ segments, e.sep ∉ s) :
    e.replace (e.sep :: new) (join e.sep first segments) =
      join e.sep first (segments.map (e.segment new)) := by
  induction segments generalizing first with
  | nil =>
    have hscan := scan_append (e.sep :: new) hfirst []
    rw [List.append_nil] at hscan
    rw [join_nil, List.map_nil, join_nil, Expr.replace, hscan]
    exact List.append_nil first
  | cons s segments ih =>
    obtain ⟨hs, hrest⟩ := List.forall_mem_cons.mp hsegments
    rw [join_cons, List.map_cons, join_cons, Expr.replace, scan_append _ hfirst, Expr.scan]
    refine congrArg (first ++ ·) ?_
    by_cases hmin : e.min ≤ (s.takeWhile e.kind).length
    · -- the match ends with what is of the kind; the rest of the segment stays
      have hmatched : e.matched e.sep (join e.sep s segments) =
          some (s.takeWhile e.kind).length := by
        rw [Expr.matched, takeWhile_join hkind, if_pos ⟨rfl, hmin⟩]
      have hdrop : (join e.sep s segments).drop (s.takeWhile e.kind).length =
          join e.sep (s.dropWhile e.kind) segments := by
        have hsplit : join e.sep s segments =
            s.takeWhile e.kind ++ join e.sep (s.dropWhile e.kind) segments := by
          rw [join, join, ← List.append_assoc, List.takeWhile_append_dropWhile]
        rw [hsplit, List.drop_left]
      have hdropped : e.sep ∉ s.dropWhile e.kind :=
        fun hmem => hs ((List.dropWhile_sublist _).subset hmem)
      have hih := ih hdropped hrest
      rw [Expr.replace] at hih
      rw [hmatched, Expr.segment, if_pos hmin]
      show (e.sep :: new) ++ e.scan (e.sep :: new) (s.takeWhile e.kind).length
        (join e.sep s segments) = _
      rw [scan_skip, hdrop, hih, List.cons_append]
      simp only [join, List.append_assoc]
    · have hmatched : e.matched e.sep (join e.sep s segments) = none := by
        rw [Expr.matched, takeWhile_join hkind, if_neg fun h => hmin h.2]
      have hih := ih hs hrest
      rw [Expr.replace] at hih
      rw [hmatched, Expr.segment, if_neg hmin]
      exact congrArg (e.sep :: ·) hih

end Scan

end Replace
