/-
  File:      BlogDemo/Lib/Scanner.lean
  Subject:   LINES AS A SCANNER READS THEM, which is what Go's `bufio.Scanner` does: without their line
             ends, without the carriage return before one, and none from a line on that is too long.

  * `lines` -- what stands between the line feeds; `scan` -- the lines that are read;
  * `weight_scan` -- reading drops bytes, or all lines are read as they are.
-/
import BlogDemo.Lib.Replace

namespace Scanner

open Replace

abbrev Bytes := List UInt8

def lf : UInt8 := 10

def cr : UInt8 := 13

/-- `MaxScanTokenSize`. -/
def maxScanTokenSize : Nat := 64 * 1024

/-! ## 1. Lines -/

/-- What stands before, between and after the line feeds. -/
def lines (data : Bytes) : List Bytes := (cut lf data).1 :: (cut lf data).2

def dropCR (line : Bytes) : Bytes := if line.getLast? = some cr then line.dropLast else line

/-- What is read of these lines: a line fills the buffer if it is too long, and what is after the last
    line feed is a line only if it is not empty. -/
def scanned : List Bytes → List Bytes
  | [] => []
  | [last] => if last = [] ∨ maxScanTokenSize ≤ last.length then [] else [dropCR last]
  | line :: next :: rest =>
    if maxScanTokenSize ≤ line.length then [] else dropCR line :: scanned (next :: rest)

def scan (data : Bytes) : List Bytes := scanned (lines data)

/-- The lines are all read as they are. -/
def Whole (ls : List Bytes) : Prop :=
  ls.getLast? ≠ some [] ∧ ∀ l ∈ ls, l.getLast? ≠ some cr ∧ l.length < maxScanTokenSize

theorem getLast?_cons_ne {α : Type} {c d : α} {cs : List α} (h : c ≠ d) :
    (c :: cs).getLast? = some d ↔ cs.getLast? = some d := by
  cases cs with
  | nil => simp [h]
  | cons e es => rw [List.getLast?_cons_cons]

/-- The last line is empty if nothing is after the last line feed. -/
theorem lines_last (data : Bytes) :
    (lines data).getLast? = some [] ↔ data = [] ∨ data.getLast? = some lf := by
  induction data with
  | nil => exact ⟨fun _ => Or.inl rfl, fun _ => rfl⟩
  | cons c cs ih =>
      by_cases hc : c = lf
      · have hlines : lines (c :: cs) = [] :: lines cs := by simp [lines, cut, hc]
        rw [hlines, lines, List.getLast?_cons_cons]
        refine ih.trans ⟨fun h => ?_, fun h => ?_⟩
        · rcases h with rfl | h
          · exact Or.inr (congrArg some hc)
          · exact Or.inr (by rw [List.getLast?_cons, h]; rfl)
        · rcases h with h | h
          · cases h
          · cases cs with
            | nil => exact Or.inl rfl
            | cons d ds => exact Or.inr (by rwa [List.getLast?_cons_cons] at h)
      · have hlines : lines (c :: cs) = (c :: (cut lf cs).1) :: (cut lf cs).2 := by
          simp [lines, cut, hc]
        have hfirst : c :: (cut lf cs).1 ≠ [] := List.cons_ne_nil _ _
        rw [hlines, getLast?_cons_ne hfirst, getLast?_cons_ne hc]
        have hempty : c :: cs = [] ↔ False := iff_of_false (List.cons_ne_nil _ _) id
        rw [hempty, false_or]
        cases hrest : (cut lf cs).2 with
        | nil =>
            -- without a line feed, the only line is all there is
            have hjoin := join_cut lf cs
            rw [hrest, join_nil] at hjoin
            have hno : lf ∉ cs := hjoin ▸ (sep_cut lf cs).1
            exact iff_of_false (fun h => by cases h) fun h => hno (List.mem_of_getLast? h)
        | cons l ls =>
            rw [lines, hrest, List.getLast?_cons_cons] at ih
            refine ih.trans (or_iff_right fun hnil => ?_)
            rw [hnil] at hrest
            cases hrest

theorem dropCR_eq {line : Bytes} (h : line.getLast? ≠ some cr) : dropCR line = line := if_neg h

theorem scanned_whole {ls : List Bytes} (h : Whole ls) : scanned ls = ls := by
  obtain ⟨hlast, hlines⟩ := h
  induction ls with
  | nil => rfl
  | cons l rest ih =>
      obtain ⟨hcr, hlen⟩ := hlines l List.mem_cons_self
      cases rest with
      | nil =>
          have hne : l ≠ [] := fun h => hlast (by rw [h]; rfl)
          rw [scanned, if_neg (by rintro (h | h); exacts [hne h, absurd hlen (Nat.not_lt.mpr h)]),
            dropCR_eq hcr]
      | cons l' rest =>
          have hrest := ih (by rwa [List.getLast?_cons_cons] at hlast)
            fun x hx => hlines x (List.mem_cons_of_mem _ hx)
          rw [scanned, if_neg (Nat.not_le.mpr hlen), dropCR_eq hcr, hrest]

/-! ## 2. How much is read -/

/-- The bytes of the lines, each with a line feed. -/
def weight : List Bytes → Nat
  | [] => 0
  | l :: rest => l.length + 1 + weight rest

theorem length_join (first : Bytes) (rest : List Bytes) :
    (join lf first rest).length + 1 = weight (first :: rest) := by
  induction rest generalizing first with
  | nil => simp [weight]
  | cons l rest ih =>
      have := ih l
      rw [join_cons, List.length_append, List.length_cons, weight, ← this]
      omega

/-- What is made of a line is made smaller by dropping its carriage return. -/
def Shrinks (f : Bytes → Bytes) : Prop :=
  ∀ l : Bytes, l.getLast? = some cr → (f l.dropLast).length < (f l).length

section Weight

variable {f : Bytes → Bytes}

theorem Shrinks.dropCR_le (hf : Shrinks f) (l : Bytes) : (f (dropCR l)).length ≤ (f l).length := by
  unfold dropCR
  split
  · exact Nat.le_of_lt (hf l ‹_›)
  · exact Nat.le_refl _

theorem Shrinks.dropCR_lt (hf : Shrinks f) {l : Bytes} (h : l.getLast? = some cr) :
    (f (dropCR l)).length < (f l).length := by
  rw [dropCR, if_pos h]
  exact hf l h

theorem weight_nil_lt (l : Bytes) (rest : List Bytes) : weight [] < weight (l :: rest) := by
  simp only [weight]
  omega

/-- **What is read is no more than there is**, and less unless all lines are read as they are. -/
theorem weight_scan (hf : Shrinks f) {ls : List Bytes} (hne : ls ≠ []) :
    weight ((scanned ls).map f) ≤ weight (ls.map f) ∧
    (weight ((scanned ls).map f) = weight (ls.map f) → Whole ls) := by
  induction ls with
  | nil => exact absurd rfl hne
  | cons l rest ih =>
      cases rest with
      | nil =>
          rw [scanned]
          split
          · have hlt := weight_nil_lt (f l) []
            exact ⟨Nat.le_of_lt hlt, fun h => absurd h (Nat.ne_of_lt hlt)⟩
          · rename_i hkept
            obtain ⟨hempty, hlen⟩ := not_or.mp hkept
            refine ⟨by simpa [weight] using hf.dropCR_le l, fun h => ?_⟩
            refine ⟨fun hlast => hempty (Option.some.inj hlast), fun x hx => ?_⟩
            obtain rfl := List.mem_singleton.mp hx
            refine ⟨fun hcr => ?_, Nat.lt_of_not_le hlen⟩
            have hlt := hf.dropCR_lt hcr
            simp only [List.map_cons, List.map_nil, weight] at h
            omega
      | cons next rest =>
          obtain ⟨hle, hwhole⟩ := ih (List.cons_ne_nil _ _)
          rw [scanned]
          split
          · have hlt := weight_nil_lt (f l) ((next :: rest).map f)
            exact ⟨Nat.le_of_lt hlt, fun h => absurd h (Nat.ne_of_lt hlt)⟩
          · rename_i hlen
            have hdrop := hf.dropCR_le l
            rw [List.map_cons, List.map_cons, weight, weight]
            refine ⟨by omega, fun h => ?_⟩
            obtain ⟨hlast, hlines⟩ := hwhole (by omega)
            refine ⟨by rwa [List.getLast?_cons_cons],
              List.forall_mem_cons.mpr ⟨⟨fun hcr => ?_, ?_⟩, hlines⟩⟩
            · have hlt := hf.dropCR_lt hcr
              omega
            · exact Nat.lt_of_not_le hlen

end Weight

end Scanner
