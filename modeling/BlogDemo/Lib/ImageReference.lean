/-
  File:      BlogDemo/Lib/ImageReference.lean
  Subject:   IMAGE REFERENCES: `[host[:port]/]path[:tag][@digest]`, and where a colon stands in one.

  A part is a text that carries what its characters are (`Chars`), so a reference that is ill formed
  cannot be built. A reference without a tag and without a digest resolves to the tag `latest`.

  * `Reference.colon_mem` -- a colon belongs to the registry, to the tag or to the digest;
  * `Reference.latest_suffix` -- the text ends with `:latest` if and only if that is the tag and
    there is no digest.
-/
import Mathlib.Data.List.Infix

namespace Oci

/-! ## 1. The last colon of a text -/

section Suffix

variable {α : Type} {c : α} {a b w : List α}

/-- A suffix that begins with a character which `b` does not have reaches beyond `b`. -/
theorem suffix_of_not_mem (hb : c ∉ b) (h : c :: w <:+ a ++ b) : b <:+ w := by
  rcases List.suffix_or_suffix_of_suffix h (List.suffix_append a b) with hcw | hbw
  · exact absurd (hcw.subset List.mem_cons_self) hb
  · rcases List.suffix_cons_iff.mp hbw with rfl | hbw
    · exact absurd List.mem_cons_self hb
    · exact hbw

/-- What stands after the last `c` is determined by the text. -/
theorem suffix_cons_iff_eq (hb : c ∉ b) (hw : c ∉ w) : c :: w <:+ a ++ c :: b ↔ b = w := by
  constructor
  · intro h
    rcases List.suffix_or_suffix_of_suffix h (List.suffix_append a (c :: b)) with hcw | hcb
    · rcases List.suffix_cons_iff.mp hcw with heq | hcw
      · exact (List.cons.inj heq).2.symm
      · exact absurd (hcw.subset List.mem_cons_self) hb
    · rcases List.suffix_cons_iff.mp hcb with heq | hcb
      · exact (List.cons.inj heq).2
      · exact absurd (hcb.subset List.mem_cons_self) hw
  · intro h
    rw [h]
    exact List.suffix_append _ _

end Suffix

/-! ## 2. The grammar -/

/-- A text of at least `n` characters, all of one kind. -/
structure Chars (kind : Char → Bool) (n : Nat) where
  text : String
  all : text.toList.all kind = true
  length : n ≤ text.toList.length

theorem Chars.not_mem {kind : Char → Bool} {n : Nat} (w : Chars kind n) {c : Char}
    (hc : kind c = false) : c ∉ w.text.toList := by
  intro hmem
  rw [List.all_eq_true.mp w.all c hmem] at hc
  cases hc

def hostChar (c : Char) : Bool := c.isAlphanum || c == '.' || c == '-'

def addressChar (c : Char) : Bool := c.isDigit || "abcdefABCDEF:.".toList.contains c

def pathChar (c : Char) : Bool := c.isLower || c.isDigit || "._-/".toList.contains c

def tagChar (c : Char) : Bool := c.isAlphanum || "_.-".toList.contains c

def algorithmChar (c : Char) : Bool := c.isAlphanum || "+._-".toList.contains c

def hexChar (c : Char) : Bool := c.isDigit || "abcdefABCDEF".toList.contains c

/-- A name, an IPv4 address, or an IPv6 address in brackets. -/
inductive Host where
  | name (w : Chars hostChar 1)
  | address (w : Chars addressChar 1)

def Host.text : Host → String
  | .name w => w.text
  | .address w => "[" ++ w.text ++ "]"

structure Registry where
  host : Host
  port : Option (Chars Char.isDigit 1)

def Registry.text (r : Registry) : String :=
  r.host.text ++ match r.port with
    | some p => ":" ++ p.text
    | none => ""

structure Digest where
  algorithm : Chars algorithmChar 1
  hex : Chars hexChar 32

def Digest.text (d : Digest) : String := d.algorithm.text ++ ":" ++ d.hex.text

structure Reference where
  registry : Option Registry
  path : Chars pathChar 1
  tag : Option (Chars tagChar 1)
  digest : Option Digest

/-- `[host[:port]/]path` -/
def Reference.name (r : Reference) : String :=
  match r.registry with
  | some registry => registry.text ++ "/" ++ r.path.text
  | none => r.path.text

def Reference.tagged (r : Reference) : String :=
  match r.tag with
  | some t => r.name ++ ":" ++ t.text
  | none => r.name

def Reference.text (r : Reference) : String :=
  match r.digest with
  | some d => r.tagged ++ "@" ++ d.text
  | none => r.tagged

/-- Neither tag nor digest. -/
def Reference.Bare (r : Reference) : Prop := r.tag = none ∧ r.digest = none

/-- The tag is `latest`, and there is no digest. -/
def Reference.TaggedLatest (r : Reference) : Prop :=
  (∃ t, r.tag = some t ∧ t.text = "latest") ∧ r.digest = none

/-- No digest, and no tag or the tag `latest`. -/
def Reference.ResolvesToLatest (r : Reference) : Prop := r.Bare ∨ r.TaggedLatest

/-- The reference with this port in the place of its own. -/
def Reference.withPort (r : Reference) (port : Option (Chars Char.isDigit 1)) : Reference :=
  { r with registry := r.registry.map fun registry => { registry with port := port } }

/-- A reference is at least its path. -/
theorem Reference.text_length (r : Reference) :
    r.path.text.toList.length ≤ r.text.toList.length := by
  have hname : r.path.text.toList.length ≤ r.name.toList.length := by
    rw [Reference.name]
    split
    · simp only [String.toList_append, List.length_append]
      omega
    · exact Nat.le_refl _
  have htagged : r.name.toList.length ≤ r.tagged.toList.length := by
    rw [Reference.tagged]
    split
    · simp only [String.toList_append, List.length_append]
      omega
    · exact Nat.le_refl _
  have htext : r.tagged.toList.length ≤ r.text.toList.length := by
    rw [Reference.text]
    split
    · simp only [String.toList_append, List.length_append]
      omega
    · exact Nat.le_refl _
  omega

theorem Reference.text_ne_empty (r : Reference) : r.text ≠ "" := by
  intro h
  have hpath := r.path.length
  have hlength := r.text_length
  rw [h] at hlength
  exact absurd (Nat.le_trans hpath hlength) (by decide)

/-! ## 3. Colons -/

theorem colon_path (r : Reference) : ':' ∉ r.path.text.toList := r.path.not_mem (by decide)

theorem Reference.name_registry {r : Reference} {registry : Registry}
    (h : r.registry = some registry) :
    r.name.toList = registry.text.toList ++ '/' :: r.path.text.toList := by
  have hslash : "/".toList = ['/'] := rfl
  simp only [Reference.name, h, String.toList_append, List.append_assoc, hslash,
    List.singleton_append]

/-- A colon of the name is one of the registry. -/
theorem Reference.colon_name (r : Reference) :
    ':' ∈ r.name.toList ↔ ∃ registry, r.registry = some registry ∧ ':' ∈ registry.text.toList := by
  cases hr : r.registry with
  | none =>
    have hname : r.name = r.path.text := by rw [Reference.name, hr]
    rw [hname]
    exact iff_of_false (colon_path r) (fun h => by simp at h)
  | some registry =>
    rw [Reference.name_registry hr, List.mem_append, List.mem_cons]
    simp [colon_path]

/-- **A colon belongs to the registry, to the tag or to the digest.** -/
theorem Reference.colon_mem (r : Reference) :
    ':' ∈ r.text.toList ↔
      (∃ registry, r.registry = some registry ∧ ':' ∈ registry.text.toList) ∨ ¬ r.Bare := by
  have hcolon : ":".toList = [':'] := rfl
  rw [← Reference.colon_name]
  cases ht : r.tag with
  | none =>
    cases hd : r.digest with
    | none => simp [Reference.text, Reference.tagged, Reference.Bare, ht, hd]
    | some d =>
      simp [Reference.text, Reference.tagged, Reference.Bare, Digest.text, ht, hd, hcolon]
  | some t =>
    cases hd : r.digest with
    | none => simp [Reference.text, Reference.tagged, Reference.Bare, ht, hd, hcolon]
    | some d =>
      simp [Reference.text, Reference.tagged, Reference.Bare, ht, hd, hcolon]

theorem latest_chars : ":latest".toList = ':' :: "latest".toList := rfl

/-- **The text ends with `:latest`** if and only if that is the tag and there is no digest. -/
theorem Reference.latest_suffix (r : Reference) :
    ":latest".toList <:+ r.text.toList ↔ r.TaggedLatest := by
  have hcolon : ":".toList = [':'] := rfl
  have hlatest : ':' ∉ "latest".toList := by decide
  rw [latest_chars]
  cases hd : r.digest with
  | some d =>
    -- after the last colon stand hexadecimal digits
    have htext : r.text.toList =
        (r.tagged ++ "@" ++ d.algorithm.text).toList ++ ':' :: d.hex.text.toList := by
      simp [Reference.text, hd, Digest.text, hcolon]
    rw [htext, suffix_cons_iff_eq (d.hex.not_mem (by decide)) hlatest]
    refine iff_of_false (fun h => ?_) (fun h => by simp [Reference.TaggedLatest, hd] at h)
    have hl : 'l' ∉ d.hex.text.toList := d.hex.not_mem (by decide)
    exact hl (h ▸ by decide)
  | none =>
    cases ht : r.tag with
    | some t =>
      have htext : r.text.toList = r.name.toList ++ ':' :: t.text.toList := by
        simp [Reference.text, Reference.tagged, hd, ht, hcolon]
      rw [htext, suffix_cons_iff_eq (t.not_mem (by decide)) hlatest, String.toList_inj]
      simp [Reference.TaggedLatest, hd, ht]
    | none =>
      -- what stands after the last colon of the registry has a slash in it
      have htext : r.text = r.name := by simp [Reference.text, Reference.tagged, hd, ht]
      rw [htext]
      refine iff_of_false (fun h => ?_) (fun h => by simp [Reference.TaggedLatest, ht] at h)
      have hmem : ':' ∈ r.name.toList := h.subset List.mem_cons_self
      obtain ⟨registry, hr, -⟩ := r.colon_name.mp hmem
      rw [Reference.name_registry hr] at h
      have hrest : ':' ∉ '/' :: r.path.text.toList := by simp [colon_path]
      have hslash : '/' ∈ "latest".toList :=
        (suffix_of_not_mem hrest h).subset List.mem_cons_self
      exact absurd hslash (by decide)

end Oci
