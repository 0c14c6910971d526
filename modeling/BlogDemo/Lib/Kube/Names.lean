/-
  File:      BlogDemo/Lib/Kube/Names.lean
  Subject:   THE GRAMMARS OF KUBERNETES NAMES. An object's name is a DNS-1123 subdomain of at most
             253 characters, a label's value at most 63 characters of a wider alphabet.

    subdomain   ::=  [a-z0-9]([-a-z0-9]*[a-z0-9])?(\.[a-z0-9]([-a-z0-9]*[a-z0-9])?)*
    label value ::=  (([A-Za-z0-9][-A-Za-z0-9_.]*)?[A-Za-z0-9])?

  A subdomain is read by an automaton over its characters (`Reading`), so that what is appended to
  one is read from where it ends (`subdomain_append`).
-/
import Mathlib.Data.List.Basic

namespace Kube

def isLowerAlnum (c : Char) : Bool := ('a' ≤ c && c ≤ 'z') || ('0' ≤ c && c ≤ '9')

def isAlnum (c : Char) : Bool := isLowerAlnum c || ('A' ≤ c && c ≤ 'Z')

/-- What has been read of a subdomain: nothing since its start or a dot, or an alphanumeric
    character last, or a hyphen. -/
inductive Reading where
  | start
  | alnum
  | hyphen
  deriving DecidableEq, Repr

def Reading.next (r : Reading) (c : Char) : Option Reading :=
  if isLowerAlnum c then some .alnum
  else if r = .start then none
  else if c = '-' then some .hyphen
  else if c = '.' ∧ r = .alnum then some .start
  else none

/-- Read on from `r`. -/
def Reading.read : Reading → List Char → Option Reading
  | r, [] => some r
  | r, c :: cs => (r.next c).bind (·.read cs)

def isSubdomain (text : String) : Bool := Reading.start.read text.toList == some .alnum

/-- The name of an object: `validation.NameIsDNSSubdomain`. -/
def isValidName (name : String) : Bool := name.length ≤ 253 && isSubdomain name

/-- The value of a label: `validation.IsValidLabelValue`. -/
def isValidLabelValue (value : String) : Bool :=
  value.length ≤ 63 &&
    value.toList.all (fun c => isAlnum c || c == '-' || c == '_' || c == '.') &&
    value.toList.head?.all isAlnum && value.toList.getLast?.all isAlnum

section Grammar

variable {r r' : Reading} {c : Char} {xs ys : List Char}

theorem read_append : r.read (xs ++ ys) = (r.read xs).bind (·.read ys) := by
  induction xs generalizing r with
  | nil => rfl
  | cons c xs ih =>
      rw [List.cons_append, Reading.read, Reading.read]
      cases r.next c with
      | none => rfl
      | some s => exact ih

/-- What may follow an alphanumeric character may follow a subdomain. -/
theorem subdomain_append {name suffix : String} (h : isSubdomain name = true)
    (hs : Reading.alnum.read suffix.toList = some .alnum) : isSubdomain (name ++ suffix) = true := by
  unfold isSubdomain at h ⊢
  rw [beq_iff_eq] at h ⊢
  rw [String.toList_append, read_append, h, Option.bind_some, hs]

theorem next_char (h : r.next c = some r') :
    isLowerAlnum c = true ∨ c = '-' ∨ c = '.' := by
  unfold Reading.next at h
  split at h
  · rename_i hc
    exact Or.inl hc
  · split at h
    · cases h
    · split at h
      · rename_i hc
        exact Or.inr (Or.inl hc)
      · split at h
        · rename_i hc
          exact Or.inr (Or.inr hc.1)
        · cases h

/-- Only an alphanumeric character ends a reading that accepts. -/
theorem next_alnum (h : r.next c = some .alnum) : isLowerAlnum c = true := by
  unfold Reading.next at h
  split at h
  · assumption
  · split at h
    · cases h
    · split at h
      · cases h
      · split at h <;> cases h

theorem read_chars (h : r.read xs = some r') :
    ∀ c ∈ xs, isLowerAlnum c = true ∨ c = '-' ∨ c = '.' := by
  induction xs generalizing r with
  | nil => exact fun _ hc => absurd hc List.not_mem_nil
  | cons x xs ih =>
      rw [Reading.read] at h
      obtain ⟨s, hs, hrest⟩ := Option.bind_eq_some_iff.mp h
      intro c hc
      rcases List.mem_cons.mp hc with rfl | hc
      · exact next_char hs
      · exact ih hrest c hc

theorem read_head (h : Reading.start.read (c :: xs) = some r') : isLowerAlnum c = true := by
  rw [Reading.read] at h
  obtain ⟨s, hs, _⟩ := Option.bind_eq_some_iff.mp h
  by_contra hc
  rw [Reading.next, if_neg hc, if_pos rfl] at hs
  cases hs

theorem read_last (h : r.read (xs ++ [c]) = some .alnum) : isLowerAlnum c = true := by
  rw [read_append] at h
  obtain ⟨s, _, hs⟩ := Option.bind_eq_some_iff.mp h
  rw [Reading.read] at hs
  obtain ⟨s', hs', hend⟩ := Option.bind_eq_some_iff.mp hs
  cases hend
  exact next_alnum hs'

/-- **A subdomain of at most 63 characters is a label value.** -/
theorem labelValue_of_subdomain {name : String} (h : isSubdomain name = true)
    (hlen : name.length ≤ 63) : isValidLabelValue name = true := by
  unfold isSubdomain at h
  rw [beq_iff_eq] at h
  have hchars : name.toList.all (fun c => isAlnum c || c == '-' || c == '_' || c == '.') = true := by
    rw [List.all_eq_true]
    intro c hc
    rcases read_chars h c hc with hc | rfl | rfl
    · simp [isAlnum, hc]
    · decide
    · decide
  have hhead : name.toList.head?.all isAlnum = true := by
    cases hl : name.toList with
    | nil => rfl
    | cons c cs =>
        rw [hl] at h
        simp [isAlnum, read_head h]
  have hlast : name.toList.getLast?.all isAlnum = true := by
    rcases List.eq_nil_or_concat name.toList with hl | ⟨cs, c, hl⟩
    · rw [hl]
      rfl
    · rw [List.concat_eq_append] at hl
      rw [hl] at h ⊢
      simp [isAlnum, read_last h]
  simp [isValidLabelValue, hlen, hchars, hhead, hlast]

end Grammar

end Kube
