/-
  File:      BlogDemo/Operator/Uncomment.lean
  Subject:   UNCOMMENTING A PIECE OF A FILE (k8s-operator-example, test/utils/utils.go): the piece is
             found by its text, and the comment prefix is taken off its lines.

  * `uncommentCode` -- the function, over the bytes of the file;
  * `uncommentCode_iff` -- when it writes the piece without its prefixes, and all else as it was;
  * **`uncomment_comment_iff`** -- when it gives back code that was commented out line by line.
-/
import BlogDemo.Lib.Scanner

namespace Operator.Uncomment

open Replace Scanner

/-! ## 1. The function -/

/-- `strings.Index`, with no index for -1. -/
def index : Bytes → Bytes → Option Nat
  | [], target => if target = [] then some 0 else none
  | c :: cs, target =>
    if target.isPrefixOf (c :: cs) then some 0 else (index cs target).map (· + 1)

/-- `strings.TrimPrefix` -/
def trim (pre line : Bytes) : Bytes :=
  if pre.isPrefixOf line then line.drop pre.length else line

inductive Err where
  /-- unable to find the code to be uncomment -/
  | unableToFind (target : Bytes)

/-- The loop: a line, and then the others, each after a line feed. -/
def loop (pre line : Bytes) : List Bytes → Bytes
  | [] => trim pre line
  | next :: rest => trim pre line ++ lf :: loop pre next rest

/-- `UncommentCode`: the bytes that are written to the file, if it is written at all. -/
def uncommentCode (content target pre : Bytes) : Except Err (Option Bytes) :=
  match index content target with
  | none => .error (.unableToFind target)
  | some idx =>
    match scan target with
    | [] => .ok none
    | line :: rest =>
      .ok (some (content.take idx ++ loop pre line rest ++ content.drop (idx + target.length)))

/-! ## 2. Where the piece is -/

theorem index_append {a target b : Bytes}
    (hfirst : ∀ j < a.length, ¬ target <+: (a ++ (target ++ b)).drop j) :
    index (a ++ (target ++ b)) target = some a.length := by
  induction a with
  | nil =>
      rw [List.nil_append, List.length_nil]
      cases h : target ++ b with
      | nil =>
          obtain ⟨rfl, rfl⟩ := List.append_eq_nil_iff.mp h
          rfl
      | cons c cs =>
          rw [index, if_pos]
          rw [List.isPrefixOf_iff_prefix, ← h]
          exact List.prefix_append _ _
  | cons c cs ih =>
      have hhead : ¬ target <+: c :: cs ++ (target ++ b) := hfirst 0 (Nat.succ_pos _)
      have hrest := ih fun j hj => hfirst (j + 1) (Nat.succ_lt_succ hj)
      rw [List.cons_append, index, if_neg, hrest]
      · rfl
      · rw [List.isPrefixOf_iff_prefix]
        exact hhead

/-! ## 3. What is written for it -/

theorem loop_eq (pre line : Bytes) (rest : List Bytes) :
    loop pre line rest = join lf (trim pre line) (rest.map (trim pre)) := by
  induction rest generalizing line with
  | nil => exact join_nil.symm
  | cons next rest ih => rw [loop, ih, List.map_cons, join_cons]

theorem trim_append (pre line : Bytes) : trim pre (pre ++ line) = line := by
  rw [trim, if_pos (List.isPrefixOf_iff_prefix.mpr (List.prefix_append _ _)), List.drop_left]

theorem shrinks_trim {pre : Bytes} (hpre : pre.getLast? ≠ some cr) : Shrinks (trim pre) := by
  intro l hl
  have hne : l ≠ [] := by
    rintro rfl
    cases hl
  by_cases h : pre <+: l
  · obtain ⟨r, rfl⟩ := h
    have hr : r ≠ [] := by
      rintro rfl
      rw [List.append_nil] at hl
      exact hpre hl
    rw [List.dropLast_append_of_ne_nil hr, trim_append, trim_append, List.length_dropLast]
    have := List.length_pos_iff.mpr hr
    omega
  · have h' : ¬ pre <+: l.dropLast := fun hp => h (hp.trans (List.dropLast_prefix l))
    rw [trim, trim, if_neg (mt List.isPrefixOf_iff_prefix.mp h'),
      if_neg (mt List.isPrefixOf_iff_prefix.mp h), List.length_dropLast]
    have := List.length_pos_iff.mpr hne
    omega

/-- The piece without its prefixes. -/
def strip (pre target : Bytes) : Bytes :=
  join lf (trim pre (cut lf target).1) ((cut lf target).2.map (trim pre))

/-- The piece is written without its prefixes if its lines are read as they are. -/
theorem writes_iff {a target b pre : Bytes}
    (hfirst : ∀ j < a.length, ¬ target <+: (a ++ (target ++ b)).drop j)
    (hpre : pre.getLast? ≠ some cr) :
    uncommentCode (a ++ (target ++ b)) target pre = .ok (some (a ++ strip pre target ++ b)) ↔
      Whole (lines target) := by
  rw [uncommentCode, index_append hfirst]
  have htake : (a ++ (target ++ b)).take a.length = a := List.take_left
  have hdrop : (a ++ (target ++ b)).drop (a.length + target.length) = b := by
    rw [← List.drop_drop, List.drop_left, List.drop_left]
  simp only [htake, hdrop]
  have hlines : lines target = (cut lf target).1 :: (cut lf target).2 := rfl
  constructor
  · intro h
    refine (weight_scan (shrinks_trim hpre) (List.cons_ne_nil _ _)).2 ?_
    cases hscan : scan target with
    | nil => simp [hscan] at h
    | cons line rest =>
        rw [hscan] at h
        have hout : a ++ loop pre line rest ++ b = a ++ strip pre target ++ b :=
          Option.some.inj (Except.ok.inj h)
        have hloop := List.append_cancel_left (List.append_cancel_right hout)
        rw [loop_eq, strip] at hloop
        show weight ((scan target).map (trim pre)) = _
        rw [hscan, List.map_cons, ← length_join, hloop, length_join]
        rfl
  · intro h
    rw [scan, scanned_whole h, hlines]
    simp only [loop_eq, strip]

/-- **When the piece is written without its prefixes**, and all else as it was: a piece that ends in a
    line feed loses it, a line its carriage return, and from a line on that is too long all is lost. -/
theorem uncommentCode_iff {a target b pre : Bytes}
    (hfirst : ∀ j < a.length, ¬ target <+: (a ++ (target ++ b)).drop j)
    (hpre : pre.getLast? ≠ some cr) :
    uncommentCode (a ++ (target ++ b)) target pre = .ok (some (a ++ strip pre target ++ b)) ↔
      target ≠ [] ∧ target.getLast? ≠ some lf ∧
        ∀ l ∈ lines target, l.getLast? ≠ some cr ∧ l.length < maxScanTokenSize := by
  refine (writes_iff hfirst hpre).trans ?_
  rw [Whole, Ne, lines_last, not_or, and_assoc]

def bytes (text : String) : Bytes := text.toUTF8.toList

theorem uncommentCode_iff_on :
    uncommentCode (bytes "a: 1\n" ++ (bytes "#- on" ++ bytes "\nb: 2\n")) (bytes "#- on") (bytes "#") =
      .ok (some (bytes "a: 1\n" ++ bytes "- on" ++ bytes "\nb: 2\n")) := by
  have hstrip : strip (bytes "#") (bytes "#- on") = bytes "- on" := by decide +kernel
  rw [← hstrip]
  exact (uncommentCode_iff (by decide +kernel) (by decide +kernel)).mpr (by decide +kernel)

/-! ## 4. Commented code -/

/-- The code with the prefix before each of its lines. -/
def comment (pre code : Bytes) : Bytes :=
  join lf (pre ++ (cut lf code).1) ((cut lf code).2.map (pre ++ ·))

theorem cut_comment {pre : Bytes} (hpre : lf ∉ pre) (code : Bytes) :
    cut lf (comment pre code) = (pre ++ (cut lf code).1, (cut lf code).2.map (pre ++ ·)) := by
  obtain ⟨hfirst, hrest⟩ := sep_cut lf code
  refine cut_join ?_ fun s hs => ?_
  · exact fun h => (List.mem_append.mp h).elim hpre hfirst
  · obtain ⟨line, hline, rfl⟩ := List.mem_map.mp hs
    exact fun h => (List.mem_append.mp h).elim hpre (hrest line hline)

theorem strip_comment {pre : Bytes} (hpre : lf ∉ pre) (code : Bytes) :
    strip pre (comment pre code) = code := by
  have htrim : trim pre ∘ (pre ++ ·) = id := funext fun line => trim_append pre line
  rw [strip, cut_comment hpre, List.map_map, htrim, List.map_id, trim_append, join_cut]

theorem lines_comment {pre : Bytes} (hpre : lf ∉ pre) (code : Bytes) :
    lines (comment pre code) = (lines code).map (pre ++ ·) := by
  rw [lines, cut_comment hpre]
  rfl

theorem whole_map {pre : Bytes} (hpre : pre ≠ []) (hcr : pre.getLast? ≠ some cr) (ls : List Bytes) :
    Whole (ls.map (pre ++ ·)) ↔
      ∀ l ∈ ls, l.getLast? ≠ some cr ∧ pre.length + l.length < maxScanTokenSize := by
  have hlast : ∀ l : Bytes, (pre ++ l).getLast? = some cr ↔ l.getLast? = some cr := by
    intro l
    cases l with
    | nil => simpa using hcr
    | cons c cs => simp [List.getLast?_append]
  have hne : (ls.map (pre ++ ·)).getLast? ≠ some [] := by
    intro h
    obtain ⟨l, _, hl⟩ := List.mem_map.mp (List.mem_of_getLast? h)
    exact hpre (List.append_eq_nil_iff.mp hl).1
  rw [Whole, List.forall_mem_map]
  refine (and_iff_right hne).trans (forall₂_congr fun l _ => ?_)
  rw [List.length_append, Ne, hlast]

/-- **When code that was commented out comes back**, where it stands first in the file: unless one of its
    lines ends in a carriage return or is, with its prefix, too long to be read. -/
theorem uncomment_comment_iff {a code b pre : Bytes} (hpre : pre ≠ []) (hlf : lf ∉ pre)
    (hcr : pre.getLast? ≠ some cr)
    (hfirst : ∀ j < a.length, ¬ comment pre code <+: (a ++ (comment pre code ++ b)).drop j) :
    uncommentCode (a ++ (comment pre code ++ b)) (comment pre code) pre =
        .ok (some (a ++ code ++ b)) ↔
      ∀ l ∈ lines code, l.getLast? ≠ some cr ∧ pre.length + l.length < maxScanTokenSize := by
  have h := writes_iff hfirst hcr
  rw [strip_comment hlf, lines_comment hlf] at h
  exact h.trans (whole_map hpre hcr _)

theorem uncomment_comment_iff_two :
    uncommentCode (bytes "a: 1\n" ++ (comment (bytes "#") (bytes "- on\n- off") ++ bytes "\n"))
        (comment (bytes "#") (bytes "- on\n- off")) (bytes "#") =
      .ok (some (bytes "a: 1\n" ++ bytes "- on\n- off" ++ bytes "\n")) :=
  (uncomment_comment_iff (by decide +kernel) (by decide +kernel) (by decide +kernel)
    (by decide +kernel)).mpr (by decide +kernel)

end Operator.Uncomment
