/-
  File:      BlogDemo/Lib/Cookies.lean
  Subject:   COOKIES: what a user agent keeps of a `Set-Cookie` header, and what it sends back.

  The header is cut as RFC 6265 has it (5.2): the name and the value up to the first semicolon, the
  name up to the first equals sign, white space around both removed. `Max-Age` is the only attribute
  that says here how long the cookie is kept; one that is not positive deletes the cookie.

  * `stored_append` -- what is kept of `name=value` and the attributes after it;
  * `entry_prefix` -- the name of an entry is what stands before its first equals sign.
-/
import Mathlib.Data.List.TakeWhile

namespace Cookies

/-! ## 1. Up to a separator -/

section Cut

variable {α : Type} [BEq α] [LawfulBEq α] {c : α} {a b w : List α}

theorem takeWhile_ne_append (h : c ∉ a) : (a ++ c :: b).takeWhile (· != c) = a := by
  have hall : ∀ x ∈ a, (x != c) = true := fun x hx => bne_iff_ne.mpr fun heq => h (heq ▸ hx)
  rw [List.takeWhile_append_of_pos hall, List.takeWhile_cons_of_neg (by simp), List.append_nil]

theorem dropWhile_ne_append (h : c ∉ a) : (a ++ c :: b).dropWhile (· != c) = c :: b := by
  have hall : ∀ x ∈ a, (x != c) = true := fun x hx => bne_iff_ne.mpr fun heq => h (heq ▸ hx)
  rw [List.dropWhile_append_of_pos hall, List.dropWhile_cons_of_neg (by simp)]

/-- Two texts that go on with a `c`, one of which begins with the other, are the same up to it. -/
theorem prefix_iff_eq (hw : c ∉ w) (ha : c ∉ a) : w ++ [c] <+: a ++ c :: b ↔ w = a := by
  constructor
  · intro h
    obtain ⟨rest, hrest⟩ := h
    rw [List.append_assoc, List.singleton_append] at hrest
    rw [← takeWhile_ne_append (b := rest) hw, hrest, takeWhile_ne_append ha]
  · intro h
    rw [h]
    exact ⟨b, by simp⟩

end Cut

/-! ## 2. Cookies -/

/-- A cookie; a name ends at the first equals sign. -/
structure Cookie where
  name : List Char
  value : List Char
  bounded : '=' ∉ name

/-- `name=value`, as it is sent. -/
def Cookie.entry (c : Cookie) : String := String.ofList (c.name ++ '=' :: c.value)

/-- The characters a value may have, a comma, a semicolon, a quote and a backslash being none. -/
def octet (c : Char) : Bool :=
  0x21 ≤ c.toNat && c.toNat ≤ 0x7E && !(['"', ',', ';', '\\'].contains c)

def blank (c : Char) : Bool := c == ' ' || c == '\t'

/-- Without the white space around it. -/
def trim (cs : List Char) : List Char := ((cs.dropWhile blank).reverse.dropWhile blank).reverse

theorem mem_trim {cs : List Char} {c : Char} (h : c ∈ trim cs) : c ∈ cs := by
  have hinner := List.mem_reverse.mp h
  have houter := (List.dropWhile_sublist _).subset hinner
  exact (List.dropWhile_sublist _).subset (List.mem_reverse.mp houter)

theorem trim_eq_self {cs : List Char} (h : ∀ c ∈ cs, blank c = false) : trim cs = cs := by
  have hfix : ∀ l : List Char, (∀ c ∈ l, blank c = false) → l.dropWhile blank = l := by
    intro l hl
    cases l with
    | nil => rfl
    | cons c l => exact List.dropWhile_cons_of_neg (by rw [hl c List.mem_cons_self]; decide)
  rw [trim, hfix cs h, hfix cs.reverse fun c hc => h c (List.mem_reverse.mp hc), List.reverse_reverse]

/-- What stands before the first equals sign, and what stands after it. -/
def before (cs : List Char) : List Char := trim (cs.takeWhile (· != '='))

def after (cs : List Char) : List Char := trim ((cs.dropWhile (· != '=')).drop 1)

theorem before_bounded (cs : List Char) : '=' ∉ before cs := by
  intro h
  have hne := List.mem_takeWhile_imp (mem_trim h)
  exact absurd hne (by decide)

def number (ds : List Char) : Nat := ds.foldl (fun n d => 10 * n + (d.toNat - 48)) 0

/-- The seconds of a `Max-Age`, if it is a numeral. -/
def seconds (cs : List Char) : Option Int :=
  let digits := if cs.head? == some '-' then cs.drop 1 else cs
  if digits == [] || !digits.all Char.isDigit then none
  else some (if cs.head? == some '-' then -(number digits : Int) else number digits)

/-- The last `Max-Age` among the attributes. -/
def maxAge (attributes : List Char) : Option Int :=
  (((attributes.splitOn ';').filter fun a =>
    (before a).map Char.toLower == "max-age".toList).filterMap fun a => seconds (after a)).getLast?

/-- The cookie, unless it is to be deleted. -/
def keep (age : Option Int) (c : Cookie) : Option Cookie :=
  if age.any (· ≤ 0) then none else some c

/-- **What is kept of a `Set-Cookie` header**, if anything. -/
def stored (header : String) : Option Cookie :=
  let pair := header.toList.takeWhile (· != ';')
  let attributes := header.toList.dropWhile (· != ';')
  if !pair.contains '=' || before pair == [] then none
  else keep (maxAge attributes) ⟨before pair, after pair, before_bounded pair⟩

/-! ## 3. What is kept, and sent -/

/-- **An entry begins with a name and an equals sign** if and only if that is its name. -/
theorem entry_prefix (c : Cookie) {name : List Char} (h : '=' ∉ name) :
    name ++ ['='] <+: c.entry.toList ↔ name = c.name := by
  rw [Cookie.entry, String.toList_ofList]
  exact prefix_iff_eq h c.bounded

theorem octet_bounds {c : Char} (h : octet c = true) :
    0x21 ≤ c.toNat ∧ c ∉ ['"', ',', ';', '\\'] := by
  simp only [octet, Bool.and_eq_true, decide_eq_true_eq, Bool.not_eq_true', List.contains_eq_mem,
    decide_eq_false_iff_not] at h
  exact ⟨h.1.1, h.2⟩

theorem blank_octet {c : Char} (h : octet c = true) : blank c = false := by
  obtain ⟨hlow, -⟩ := octet_bounds h
  rw [blank, Bool.or_eq_false_iff, beq_eq_false_iff_ne, beq_eq_false_iff_ne]
  constructor
  · intro heq
    subst heq
    exact absurd hlow (by decide)
  · intro heq
    subst heq
    exact absurd hlow (by decide)

/-- **What is kept of a name and a value** and the attributes after them. -/
theorem stored_append {name value : List Char} (attributes : List Char) (hne : name ≠ [])
    (hbounded : '=' ∉ name) (hname : ∀ c ∈ name, octet c = true)
    (hvalue : ∀ c ∈ value, octet c = true) :
    stored (String.ofList (name ++ '=' :: value ++ ';' :: attributes)) =
      keep (maxAge (';' :: attributes)) ⟨name, value, hbounded⟩ := by
  have hsemicolon : ';' ∉ name ++ '=' :: value := by
    intro h
    have hoctet : octet ';' = false := by decide
    rcases List.mem_append.mp h with h | h
    · rw [hname _ h] at hoctet
      cases hoctet
    · rcases List.mem_cons.mp h with h | h
      · cases h
      · rw [hvalue _ h] at hoctet
        cases hoctet
  have hbefore : before (name ++ '=' :: value) = name := by
    rw [before, takeWhile_ne_append hbounded]
    exact trim_eq_self fun c hc => blank_octet (hname c hc)
  have hafter : after (name ++ '=' :: value) = value := by
    rw [after, dropWhile_ne_append hbounded]
    exact trim_eq_self fun c hc => blank_octet (hvalue c hc)
  have hcontains : (name ++ '=' :: value).contains '=' = true := by simp
  have hempty : (name == []) = false := beq_false_of_ne hne
  unfold stored
  simp only [String.toList_ofList, takeWhile_ne_append hsemicolon, dropWhile_ne_append hsemicolon,
    hbefore, hafter, hcontains, hempty]
  rfl

end Cookies
