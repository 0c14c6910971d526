/-
  File:      BlogDemo/Lib/Uri.lean
  Subject:   PERCENT-ENCODING as JavaScript does it: `encodeURIComponent`, `decodeURIComponent`.

  A text is decoded in two passes. The first one reads `%XX` as an octet and every other character
  as itself (`pieces`), the second one puts octets together to characters (`assemble`); a text that
  fails in either one is a `URIError`.

  * **`decode_encode`** -- decoding undoes encoding;
  * `encode_chars` -- the characters of an encoded text;
  * `decode_dot` -- which texts decode to a dot.
-/
import BlogDemo.Lib.Js
import Mathlib

namespace Uri

open Js

/-! ## 1. Octets in hexadecimal -/

def hexDigit (n : Nat) : Char := if n < 10 then Char.ofNat (48 + n) else Char.ofNat (55 + n)

def hexValue (c : Char) : Option Nat :=
  if 48 ≤ c.toNat ∧ c.toNat ≤ 57 then some (c.toNat - 48)
  else if 65 ≤ c.toNat ∧ c.toNat ≤ 70 then some (c.toNat - 55)
  else if 97 ≤ c.toNat ∧ c.toNat ≤ 102 then some (c.toNat - 87)
  else none

/-- `%XX` -/
def percent (b : UInt8) : List Char := ['%', hexDigit (b.toNat / 16), hexDigit (b.toNat % 16)]

def hexOctet (a b : Char) : Option UInt8 :=
  match hexValue a, hexValue b with
  | some x, some y => some (UInt8.ofNat (16 * x + y))
  | _, _ => none

theorem hexValue_hexDigit {n : Nat} (h : n < 16) : hexValue (hexDigit n) = some n := by
  have hall : ∀ n < 16, hexValue (hexDigit n) = some n := by decide
  exact hall n h

theorem hexOctet_hexDigit (b : UInt8) :
    hexOctet (hexDigit (b.toNat / 16)) (hexDigit (b.toNat % 16)) = some b := by
  have hb : b.toNat < 256 := b.toNat_lt
  have hdiv : b.toNat / 16 < 16 := by omega
  have hmod : b.toNat % 16 < 16 := by omega
  have hsum : 16 * (b.toNat / 16) + b.toNat % 16 = b.toNat := by omega
  simp only [hexOctet, hexValue_hexDigit hdiv, hexValue_hexDigit hmod, hsum, UInt8.ofNat_toNat]

/-! ## 2. `encodeURIComponent` -/

/-- The characters that stay as they are. -/
def unreserved (c : Char) : Bool := c.isAlphanum || "-_.!~*'()".toList.contains c

def encodeChar (c : Char) : List Char :=
  if unreserved c then [c] else (String.utf8EncodeChar c).flatMap percent

def encode (cs : List Char) : List Char := cs.flatMap encodeChar

/-- `encodeURIComponent(text)`; a text has no lone surrogates here. -/
def encodeURIComponent (text : String) : String := String.ofList (encode text.toList)

/-! ## 3. `decodeURIComponent` -/

/-- A character that is no escape, or an octet that was one. -/
inductive Piece where
  | char (c : Char)
  | octet (b : UInt8)
  deriving DecidableEq

def pieces : List Char → Option (List Piece)
  | [] => some []
  | c :: rest =>
    if c = '%' then
      match rest with
      | a :: b :: rest =>
        match hexOctet a b with
        | some o => (pieces rest).map (.octet o :: ·)
        | none => none
      | _ => none
    else (pieces rest).map (.char c :: ·)

/-- The length of a character in octets, told by its first one. -/
def octets (a : UInt8) : Nat :=
  if a < 0x80 then 1 else if a < 0xC0 then 0 else if a < 0xE0 then 2 else if a < 0xF0 then 3
  else if a < 0xF8 then 4 else 0

/-- The character these octets are the UTF-8 of. -/
def utf8 (bytes : List UInt8) : Option Char :=
  match bytes.toByteArray.utf8DecodeChar? 0 with
  | some c => if c.utf8Size = bytes.length then some c else none
  | none => none

/-- A character in front of what comes after it. -/
def consChar : Option Char → Option (List Char) → Option (List Char)
  | some c, some cs => some (c :: cs)
  | _, _ => none

def assemble : List Piece → Option (List Char)
  | [] => some []
  | .char c :: ps => consChar (some c) (assemble ps)
  | .octet a :: ps =>
    if octets a = 1 then consChar (utf8 [a]) (assemble ps)
    else if octets a = 2 then
      match ps with
      | .octet b :: ps => consChar (utf8 [a, b]) (assemble ps)
      | _ => none
    else if octets a = 3 then
      match ps with
      | .octet b :: .octet c :: ps => consChar (utf8 [a, b, c]) (assemble ps)
      | _ => none
    else if octets a = 4 then
      match ps with
      | .octet b :: .octet c :: .octet d :: ps => consChar (utf8 [a, b, c, d]) (assemble ps)
      | _ => none
    else none

def decode (cs : List Char) : Option (List Char) := (pieces cs).bind assemble

/-- `decodeURIComponent(text)` -/
def decodeURIComponent (text : String) : Except Error String :=
  match decode text.toList with
  | some cs => .ok (String.ofList cs)
  | none => .error ⟨"URIError", "URI malformed"⟩

/-! ## 4. Decoding undoes encoding -/

theorem pieces_percent (b : UInt8) (rest : List Char) :
    pieces (percent b ++ rest) = (pieces rest).map (.octet b :: ·) := by
  show pieces ('%' :: hexDigit (b.toNat / 16) :: hexDigit (b.toNat % 16) :: rest) = _
  rw [pieces, if_pos rfl]
  simp only [hexOctet_hexDigit]

theorem pieces_char {c : Char} (h : c ≠ '%') (rest : List Char) :
    pieces (c :: rest) = (pieces rest).map (.char c :: ·) := by
  rw [pieces.eq_def]
  exact if_neg h

theorem pieces_octets (bs : List UInt8) (rest : List Char) :
    pieces (bs.flatMap percent ++ rest) = (pieces rest).map (bs.map .octet ++ ·) := by
  induction bs with
  | nil => simp
  | cons b bs ih =>
      rw [List.flatMap_cons, List.append_assoc, pieces_percent, ih, Option.map_map]
      rfl

/-- What an encoded character is taken apart into. -/
def piecesOf (c : Char) : List Piece :=
  if unreserved c then [.char c] else (String.utf8EncodeChar c).map .octet

theorem pieces_encodeChar (c : Char) (rest : List Char) :
    pieces (encodeChar c ++ rest) = (pieces rest).map (piecesOf c ++ ·) := by
  unfold encodeChar piecesOf
  by_cases hc : unreserved c = true
  · have hne : c ≠ '%' := by
      intro heq
      subst heq
      revert hc
      decide
    rw [if_pos hc, if_pos hc]
    exact pieces_char hne rest
  · rw [if_neg hc, if_neg hc]
    exact pieces_octets _ rest

theorem utf8_encode (c : Char) : utf8 (String.utf8EncodeChar c) = some c := by
  have h : (String.utf8EncodeChar c).toByteArray.utf8DecodeChar? 0 = some c := by
    have happend := ByteArray.utf8DecodeChar?_utf8EncodeChar_append (b := ByteArray.empty) (c := c)
    rwa [ByteArray.append_empty] at happend
  simp only [utf8, h, String.length_utf8EncodeChar, if_true]

theorem octets_one {n : Nat} (h : n < 0x80) : octets (UInt8.ofNat n) = 1 := by
  have hall : ∀ n < 0x80, octets (UInt8.ofNat n) = 1 := by decide
  exact hall n h

theorem octets_two {n : Nat} (h : n < 0x20) : octets (UInt8.ofNat (n + 0xC0)) = 2 := by
  have hall : ∀ n < 0x20, octets (UInt8.ofNat (n + 0xC0)) = 2 := by decide
  exact hall n h

theorem octets_three {n : Nat} (h : n < 0x10) : octets (UInt8.ofNat (n + 0xE0)) = 3 := by
  have hall : ∀ n < 0x10, octets (UInt8.ofNat (n + 0xE0)) = 3 := by decide
  exact hall n h

theorem octets_four {n : Nat} (h : n < 0x08) : octets (UInt8.ofNat (n + 0xF0)) = 4 := by
  have hall : ∀ n < 0x08, octets (UInt8.ofNat (n + 0xF0)) = 4 := by decide
  exact hall n h

section Assemble

variable {a b c d : UInt8} {ps : List Piece}

theorem assemble_one (h : octets a = 1) :
    assemble (.octet a :: ps) = consChar (utf8 [a]) (assemble ps) := by
  rw [assemble.eq_def]
  exact if_pos h

theorem assemble_two (h : octets a = 2) :
    assemble (.octet a :: .octet b :: ps) = consChar (utf8 [a, b]) (assemble ps) := by
  simp only [assemble, h]
  rfl

theorem assemble_three (h : octets a = 3) :
    assemble (.octet a :: .octet b :: .octet c :: ps) =
      consChar (utf8 [a, b, c]) (assemble ps) := by
  simp only [assemble, h]
  rfl

theorem assemble_four (h : octets a = 4) :
    assemble (.octet a :: .octet b :: .octet c :: .octet d :: ps) =
      consChar (utf8 [a, b, c, d]) (assemble ps) := by
  simp only [assemble, h]
  rfl

end Assemble

/-- The octets of a character are put together again. -/
theorem assemble_octets (c : Char) (ps : List Piece) :
    assemble ((String.utf8EncodeChar c).map .octet ++ ps) = consChar (some c) (assemble ps) := by
  have hutf8 := utf8_encode c
  unfold String.utf8EncodeChar at hutf8 ⊢
  dsimp only at hutf8 ⊢
  split
  · rename_i h
    rw [if_pos h] at hutf8
    rw [← hutf8]
    exact assemble_one (octets_one (Nat.lt_succ_of_le h))
  · rename_i h
    rw [if_neg h] at hutf8
    split
    · rename_i h'
      rw [if_pos h'] at hutf8
      rw [← hutf8]
      exact assemble_two (octets_two (Nat.mod_lt _ (by decide)))
    · rename_i h'
      rw [if_neg h'] at hutf8
      split
      · rename_i h''
        rw [if_pos h''] at hutf8
        rw [← hutf8]
        exact assemble_three (octets_three (Nat.mod_lt _ (by decide)))
      · rename_i h''
        rw [if_neg h''] at hutf8
        rw [← hutf8]
        exact assemble_four (octets_four (Nat.mod_lt _ (by decide)))

theorem assemble_piecesOf (c : Char) (ps : List Piece) :
    assemble (piecesOf c ++ ps) = consChar (some c) (assemble ps) := by
  unfold piecesOf
  split
  · rfl
  · exact assemble_octets c ps

/-- **Decoding undoes encoding.** -/
theorem decode_encode (cs : List Char) : decode (encode cs) = some cs := by
  have hpieces : pieces (encode cs) = some (cs.flatMap piecesOf) := by
    induction cs with
    | nil => rfl
    | cons c cs ih =>
        have hcons : encode (c :: cs) = encodeChar c ++ encode cs := rfl
        rw [hcons, pieces_encodeChar, ih]
        rfl
  have hassemble : assemble (cs.flatMap piecesOf) = some cs := by
    clear hpieces
    induction cs with
    | nil => rfl
    | cons c cs ih =>
        rw [List.flatMap_cons, assemble_piecesOf, ih]
        rfl
  rw [decode, hpieces, Option.bind_some, hassemble]

theorem decodeURIComponent_encode (text : String) :
    decodeURIComponent (encodeURIComponent text) = .ok text := by
  unfold decodeURIComponent encodeURIComponent
  rw [String.toList_ofList, decode_encode]
  simp only [String.ofList_toList]

/-! ## 5. What an encoded text consists of -/

theorem hexDigit_unreserved {n : Nat} (h : n < 16) : unreserved (hexDigit n) = true := by
  have hall : ∀ n < 16, unreserved (hexDigit n) = true := by decide
  exact hall n h

theorem percent_chars {b : UInt8} {x : Char} (h : x ∈ percent b) :
    unreserved x = true ∨ x = '%' := by
  have hb : b.toNat < 256 := b.toNat_lt
  have hdiv : b.toNat / 16 < 16 := by omega
  have hmod : b.toNat % 16 < 16 := by omega
  simp only [percent, List.mem_cons, List.not_mem_nil, or_false] at h
  rcases h with rfl | rfl | rfl
  · exact Or.inr rfl
  · exact Or.inl (hexDigit_unreserved hdiv)
  · exact Or.inl (hexDigit_unreserved hmod)

/-- An encoded text consists of characters that stay as they are and of escapes. -/
theorem encode_chars {cs : List Char} {x : Char} (h : x ∈ encode cs) :
    unreserved x = true ∨ x = '%' := by
  obtain ⟨c, _, hx⟩ := List.mem_flatMap.mp h
  unfold encodeChar at hx
  split at hx
  · rename_i hc
    rw [List.mem_singleton] at hx
    exact Or.inl (hx ▸ hc)
  · obtain ⟨b, _, hb⟩ := List.mem_flatMap.mp hx
    exact percent_chars hb

theorem alphanum_lt {c : Char} (h : c.isAlphanum = true) : c.toNat < 128 := by
  simp only [Char.isAlphanum, Char.isAlpha, Char.isUpper, Char.isLower, Char.isDigit,
    Bool.or_eq_true, Bool.and_eq_true, decide_eq_true_eq, UInt32.le_iff_toNat_le, ge_iff_le] at h
  change ((65 ≤ c.toNat ∧ c.toNat ≤ 90) ∨ (97 ≤ c.toNat ∧ c.toNat ≤ 122)) ∨
    (48 ≤ c.toNat ∧ c.toNat ≤ 57) at h
  omega

/-! ## 6. Texts that decode to dots -/

/-- The ways to write a dot. -/
def dots : List (List Char) := [['.'], ['%', '2', 'e'], ['%', '2', 'E']]

theorem consChar_some {o : Option Char} {cs : Option (List Char)} {c : Char} {t : List Char}
    (h : consChar o cs = some (c :: t)) : o = some c ∧ cs = some t := by
  unfold consChar at h
  split at h
  · cases h
    exact ⟨rfl, rfl⟩
  · cases h

/-- A character of several octets is none of one. -/
theorem utf8_size {bs : List UInt8} {c : Char} (h : utf8 bs = some c) : c.utf8Size = bs.length := by
  unfold utf8 at h
  split at h
  · split at h
    · rename_i hsize
      cases h
      exact hsize
    · cases h
  · cases h

theorem utf8_dot {o : UInt8} (ho : octets o = 1) (h : utf8 [o] = some '.') : o = 0x2E := by
  have hlt : o.toNat < 128 := by
    unfold octets at ho
    split at ho
    · rename_i hlt
      exact hlt
    · repeat' split at ho
      all_goals cases ho
  have hall : ∀ n < 128, utf8 [UInt8.ofNat n] = some '.' → n = 0x2E := by decide
  have hn : o.toNat = 0x2E := hall o.toNat hlt (by rwa [UInt8.ofNat_toNat])
  exact UInt8.toNat_inj.mp hn

theorem char_of_toNat {c : Char} {n : Nat} (h : c.toNat = n) : c = Char.ofNat n := by
  rw [← h, Char.ofNat_toNat]

/-- The character of a hexadecimal digit. -/
theorem hexValue_some {c : Char} {x : Nat} (h : hexValue c = some x) :
    x < 10 ∧ c.toNat = x + 48 ∨
      10 ≤ x ∧ x < 16 ∧ (c.toNat = x + 55 ∨ c.toNat = x + 87) := by
  unfold hexValue at h
  split at h
  · cases h
    omega
  · split at h
    · cases h
      omega
    · split at h
      · cases h
        omega
      · cases h

theorem hexOctet_dot {a b : Char} (h : hexOctet a b = some 0x2E) :
    a = '2' ∧ (b = 'e' ∨ b = 'E') := by
  unfold hexOctet at h
  split at h
  · rename_i x y hx hy
    have hsum : UInt8.ofNat (16 * x + y) = UInt8.ofNat 0x2E := Option.some.inj h
    have hmod : (16 * x + y) % 256 = 0x2E := by
      have hnat := congrArg UInt8.toNat hsum
      rwa [UInt8.toNat_ofNat', UInt8.toNat_ofNat'] at hnat
    have hx := hexValue_some hx
    have hy := hexValue_some hy
    have ha : a.toNat = 50 := by omega
    have hb : b.toNat = 101 ∨ b.toNat = 69 := by omega
    exact ⟨char_of_toNat ha, hb.imp char_of_toNat char_of_toNat⟩
  · cases h

/-- A character of two octets or more is no dot. -/
theorem octets_dot {o : UInt8} {ps : List Piece} {t : List Char}
    (h : assemble (.octet o :: ps) = some ('.' :: t)) : octets o = 1 := by
  have hlength : ∀ bs, utf8 bs = some '.' → bs.length = 1 := fun bs hbs => (utf8_size hbs).symm
  by_contra hne
  rw [assemble.eq_def] at h
  simp only [if_neg hne] at h
  repeat' split at h
  all_goals first
    | cases h
    | simpa using hlength _ (consChar_some h).1

/-- **A text that decodes to a dot first** begins with a dot, or with the escape of one. -/
theorem decode_dot {s t : List Char} (h : decode s = some ('.' :: t)) :
    ∃ d ∈ dots, ∃ r, s = d ++ r ∧ decode r = some t := by
  obtain ⟨ps, hps, hassemble⟩ := Option.bind_eq_some_iff.mp h
  cases s with
  | nil => cases hps; cases hassemble
  | cons c rest =>
      by_cases hc : c = '%'
      · subst hc
        match rest, hps with
        | a :: b :: rest, hps =>
            rw [pieces, if_pos rfl] at hps
            split at hps
            · rename_i o ho
              obtain ⟨ps', hps', rfl⟩ := Option.map_eq_some_iff.mp hps
              have hone := octets_dot hassemble
              rw [assemble_one hone] at hassemble
              obtain ⟨hdot, hrest⟩ := consChar_some hassemble
              obtain rfl := utf8_dot hone hdot
              obtain ⟨rfl, hb⟩ := hexOctet_dot ho
              refine ⟨['%', '2', b], ?_, rest, rfl, Option.bind_eq_some_iff.mpr ⟨ps', hps', hrest⟩⟩
              rcases hb with rfl | rfl <;> simp [dots]
            · cases hps
      · rw [pieces_char hc] at hps
        obtain ⟨ps', hps', rfl⟩ := Option.map_eq_some_iff.mp hps
        obtain ⟨hdot, hrest⟩ := consChar_some hassemble
        cases hdot
        exact ⟨['.'], by simp [dots], rest, rfl, Option.bind_eq_some_iff.mpr ⟨ps', hps', hrest⟩⟩

theorem consChar_ne_nil (o : Option Char) (cs : Option (List Char)) : consChar o cs ≠ some [] := by
  unfold consChar
  split
  · simp
  · simp

/-- Only the empty text decodes to the empty text. -/
theorem decode_nil {s : List Char} (h : decode s = some []) : s = [] := by
  obtain ⟨ps, hps, hassemble⟩ := Option.bind_eq_some_iff.mp h
  have hnil : ps = [] := by
    rw [assemble.eq_def] at hassemble
    repeat' split at hassemble
    all_goals first
      | rfl
      | exact absurd hassemble (consChar_ne_nil _ _)
      | cases hassemble
  subst hnil
  rw [pieces.eq_def] at hps
  repeat' split at hps
  all_goals first
    | rfl
    | simp at hps

end Uri
