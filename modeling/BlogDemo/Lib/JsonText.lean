/-
  File:      BlogDemo/Lib/JsonText.lean
  Subject:   JSON AS TEXT: `JSON.stringify` and `JSON.parse` on texts of UTF-16 code units.

  The parser is a machine that reads one code unit after the other; what is open (arrays, objects)
  lies on its stack. A value has the properties of an object in the order JavaScript has them:
  array indices ascending, then the others as they were added, each once (`Canonical`).

  * **`parse_stringify`** -- what is printed is read back as the value, with `null` for every
    infinity;
  * **`parse_ne_str`** -- no text is read as the string that it is itself.
-/
import BlogDemo.Lib.Double

namespace JsonText

open Utf16 Ecma

/-- A JSON value. -/
inductive Value where
  | null
  | bool (b : Bool)
  | num (n : Number)
  | str (s : Text)
  | arr (xs : List Value)
  | obj (fields : List (Text × Value))
  deriving Repr

abbrev Fields := List (Text × Value)

/-! ## 1. The properties of an object -/

/-- The array index a key is, if it is one. -/
def index (key : Text) : Option Nat :=
  let n := natOfDigits 0 key
  if digits n = key ∧ n < 2 ^ 32 - 1 then some n else none

/-- A new key goes before this one. -/
def sooner (key other : Text) : Bool :=
  match index key, index other with
  | some i, some j => i < j
  | some _, none => true
  | none, _ => false

/-- Two keys may stand in this order. -/
def InOrder (key other : Text) : Prop := key ≠ other ∧ sooner other key = false

/-- `object[key] = value` -/
def put (key : Text) (v : Value) : Fields → Fields
  | [] => [(key, v)]
  | (l, x) :: fields =>
    if key = l then (l, v) :: fields
    else if sooner key l then (key, v) :: (l, x) :: fields
    else (l, x) :: put key v fields

mutual

/-- The properties of every object in a value are in order. -/
def Value.Canonical : Value → Prop
  | .arr xs => CanonicalList xs
  | .obj fields => (fields.map Prod.fst).Pairwise InOrder ∧ CanonicalFields fields
  | _ => True

def CanonicalList : List Value → Prop
  | [] => True
  | x :: xs => x.Canonical ∧ CanonicalList xs

def CanonicalFields : List (Text × Value) → Prop
  | [] => True
  | (_, x) :: fields => x.Canonical ∧ CanonicalFields fields

end

theorem canonicalList_iff (xs : List Value) : CanonicalList xs ↔ ∀ x ∈ xs, x.Canonical := by
  induction xs with
  | nil => simp [CanonicalList]
  | cons x xs ih => simp [CanonicalList, ih]

theorem canonicalFields_iff (fields : Fields) :
    CanonicalFields fields ↔ ∀ p ∈ fields, p.2.Canonical := by
  induction fields with
  | nil => simp [CanonicalFields]
  | cons p fields ih => simp [CanonicalFields, ih]

theorem put_append {key : Text} {v : Value} {fields : Fields}
    (h : ∀ p ∈ fields, InOrder p.1 key) : put key v fields = fields ++ [(key, v)] := by
  induction fields with
  | nil => rfl
  | cons p fields ih =>
      obtain ⟨l, x⟩ := p
      obtain ⟨hne, hsooner⟩ := h (l, x) (List.mem_cons_self ..)
      rw [put, if_neg fun e => hne e.symm, hsooner, ih fun p hp => h p (List.mem_cons_of_mem _ hp)]
      rfl

theorem mem_put {key : Text} {v : Value} {fields : Fields} {p : Text × Value}
    (h : p ∈ put key v fields) : (p.1 = key ∧ p.2 = v) ∨ p ∈ fields := by
  induction fields with
  | nil =>
      rw [put, List.mem_singleton] at h
      exact .inl ⟨congrArg Prod.fst h, congrArg Prod.snd h⟩
  | cons q fields ih =>
      obtain ⟨l, x⟩ := q
      unfold put at h
      split at h
      · rename_i hkey
        rcases List.mem_cons.mp h with rfl | h
        · exact .inl ⟨hkey.symm, rfl⟩
        · exact .inr (List.mem_cons_of_mem _ h)
      · split at h
        · rcases List.mem_cons.mp h with rfl | h
          · exact .inl ⟨rfl, rfl⟩
          · exact .inr h
        · rcases List.mem_cons.mp h with rfl | h
          · exact .inr (List.mem_cons_self ..)
          · exact (ih h).imp id (List.mem_cons_of_mem _)

/-- A key that goes before another one is in order with every key from there on. -/
theorem inOrder_of_sooner {key l other : Text} (hkey : sooner key l = true)
    (hl : l = other ∨ InOrder l other) : InOrder key other := by
  have hother : ∀ j, index other = some j → ∀ i, index key = some i → i < j := by
    intro j hj i hi
    rcases hl with rfl | ⟨-, hl⟩
    · simpa [sooner, hi, hj] using hkey
    · cases hindex : index l with
      | none => simp [sooner, hj, hindex] at hl
      | some k =>
          simp only [sooner, hi, hindex, decide_eq_true_eq] at hkey
          simp only [sooner, hj, hindex, decide_eq_false_iff_not] at hl
          omega
  cases hi : index key with
  | none => simp [sooner, hi] at hkey
  | some i =>
      cases hj : index other with
      | none =>
          refine ⟨?_, by simp [sooner, hj]⟩
          intro heq
          subst heq
          rw [hi] at hj
          cases hj
      | some j =>
          have hlt := hother j hj i hi
          refine ⟨?_, by simp [sooner, hi, hj]; omega⟩
          intro heq
          subst heq
          rw [hi] at hj
          simp only [Option.some.injEq] at hj
          omega

theorem canonical_put {key : Text} {v : Value} {fields : Fields}
    (h : (fields.map Prod.fst).Pairwise InOrder) :
    ((put key v fields).map Prod.fst).Pairwise InOrder := by
  induction fields with
  | nil => simp [put]
  | cons p fields ih =>
      obtain ⟨l, x⟩ := p
      rw [List.map_cons, List.pairwise_cons] at h
      unfold put
      split
      · rw [List.map_cons, List.pairwise_cons]
        exact h
      · rename_i hne
        split
        · rename_i hsooner
          rw [List.map_cons, List.pairwise_cons, List.map_cons, List.pairwise_cons]
          refine ⟨fun other hother => ?_, h⟩
          rcases List.mem_cons.mp hother with rfl | hother
          · exact inOrder_of_sooner hsooner (.inl rfl)
          · exact inOrder_of_sooner hsooner (.inr (h.1 other hother))
        · rename_i hsooner
          rw [List.map_cons, List.pairwise_cons]
          refine ⟨fun other hother => ?_, ih h.2⟩
          obtain ⟨p, hp, rfl⟩ := List.mem_map.mp hother
          rcases mem_put hp with ⟨hkey, -⟩ | hp
          · rw [hkey]
            exact ⟨fun e => hne e.symm, by simpa using hsooner⟩
          · exact h.1 p.1 (List.mem_map_of_mem hp)

/-! ## 2. `JSON.stringify` -/

def hexDigit (n : Nat) : UInt16 := UInt16.ofNat (if n < 10 then 0x30 + n else 0x57 + n)

def hexValue (c : UInt16) : Option Nat :=
  if 0x30 ≤ c ∧ c ≤ 0x39 then some (c.toNat - 0x30)
  else if 0x41 ≤ c ∧ c ≤ 0x46 then some (c.toNat - 0x37)
  else if 0x61 ≤ c ∧ c ≤ 0x66 then some (c.toNat - 0x57)
  else none

/-- `\uXXXX` -/
def unicodeEscape (c : UInt16) : Text :=
  let n := c.toNat
  [0x5C, 0x75, hexDigit (n / 4096 % 16), hexDigit (n / 256 % 16), hexDigit (n / 16 % 16),
    hexDigit (n % 16)]

/-- The code units with a short escape, and the letter it has. -/
def shortEscapes : List (UInt16 × UInt16) :=
  [(0x22, 0x22), (0x5C, 0x5C), (0x08, 0x62), (0x0C, 0x66), (0x0A, 0x6E), (0x0D, 0x72), (0x09, 0x74)]

def isLead (c : UInt16) : Bool := 0xD800 ≤ c && c < 0xDC00

def isTrail (c : UInt16) : Bool := 0xDC00 ≤ c && c < 0xE000

/-- A code unit that is no half of a surrogate pair. -/
def quoteUnit (c : UInt16) : Text :=
  match shortEscapes.lookup c with
  | some letter => [0x5C, letter]
  | none => if c < 0x20 || isLead c || isTrail c then unicodeEscape c else [c]

def quoteUnits : Text → Text
  | [] => []
  | [c] => quoteUnit c
  | c :: d :: cs =>
    if isLead c && isTrail d then c :: d :: quoteUnits cs else quoteUnit c ++ quoteUnits (d :: cs)

def quote (s : Text) : Text := 0x22 :: (quoteUnits s ++ [0x22])

mutual

/-- `JSON.stringify(value)` -/
def stringify : Value → Text
  | .null => text "null"
  | .bool b => text (if b then "true" else "false")
  | .num (.finite x) => Number.toText (.finite x)
  | .num (.infinity _) => text "null"
  | .str s => quote s
  | .arr xs => 0x5B :: ((stringifyList xs).tail ++ [0x5D])
  | .obj fields => 0x7B :: ((stringifyFields fields).tail ++ [0x7D])

/-- Every element with a comma in front of it. -/
def stringifyList : List Value → Text
  | [] => []
  | x :: xs => 0x2C :: (stringify x ++ stringifyList xs)

def stringifyFields : List (Text × Value) → Text
  | [] => []
  | (k, x) :: fields => 0x2C :: (quote k ++ 0x3A :: (stringify x ++ stringifyFields fields))

end

mutual

/-- What is left of a value in its text: an infinity is printed as `null`. -/
def Value.printed : Value → Value
  | .num (.infinity _) => .null
  | .arr xs => .arr (printedList xs)
  | .obj fields => .obj (printedFields fields)
  | v => v

def printedList : List Value → List Value
  | [] => []
  | x :: xs => x.printed :: printedList xs

def printedFields : List (Text × Value) → Fields
  | [] => []
  | (k, x) :: fields => (k, x.printed) :: printedFields fields

end

mutual

/-- There is no infinity in a value. -/
def Value.finite : Value → Bool
  | .num (.infinity _) => false
  | .arr xs => finiteList xs
  | .obj fields => finiteFields fields
  | _ => true

def finiteList : List Value → Bool
  | [] => true
  | x :: xs => x.finite && finiteList xs

def finiteFields : List (Text × Value) → Bool
  | [] => true
  | (_, x) :: fields => x.finite && finiteFields fields

end

mutual

theorem printed_eq_iff : ∀ v : Value, v.printed = v ↔ v.finite = true
  | .null => by simp [Value.printed, Value.finite]
  | .bool _ => by simp [Value.printed, Value.finite]
  | .num (.finite _) => by simp [Value.printed, Value.finite]
  | .num (.infinity _) => by simp [Value.printed, Value.finite]
  | .str _ => by simp [Value.printed, Value.finite]
  | .arr xs => by simp only [Value.printed, Value.finite, Value.arr.injEq, printedList_eq_iff xs]
  | .obj fields => by
      simp only [Value.printed, Value.finite, Value.obj.injEq, printedFields_eq_iff fields]

theorem printedList_eq_iff : ∀ xs : List Value, printedList xs = xs ↔ finiteList xs = true
  | [] => by simp [printedList, finiteList]
  | x :: xs => by
      simp only [printedList, finiteList, List.cons.injEq, Bool.and_eq_true, printed_eq_iff x,
        printedList_eq_iff xs]

theorem printedFields_eq_iff : ∀ fields : List (Text × Value),
    printedFields fields = fields ↔ finiteFields fields = true
  | [] => by simp [printedFields, finiteFields]
  | (k, x) :: fields => by
      simp only [printedFields, finiteFields, List.cons.injEq, Prod.mk.injEq, true_and,
        Bool.and_eq_true, printed_eq_iff x, printedFields_eq_iff fields]

end

/-! ## 3. `JSON.parse` -/

/-- An array or an object that is open, with what it has so far; `key` is the one whose value
    comes next. -/
inductive Frame where
  | arr (xs : List Value)
  | obj (fields : Fields) (key : Text)

/-- What may come next. -/
inductive Mode where
  | value
  | firstElement
  | firstKey
  | key
  | colon
  | next
  | string (isKey : Bool) (s : Text)
  | escape (isKey : Bool) (s : Text)
  | hex (isKey : Bool) (s : Text) (left : Nat) (value : Nat)
  | number (n : Numeral)
  | word (rest : Text) (v : Value)
  | done (v : Value)

structure State where
  stack : List Frame
  mode : Mode

def isSpace (c : UInt16) : Bool := c = 0x20 || c = 0x09 || c = 0x0A || c = 0x0D

/-- A value is complete. -/
def complete (v : Value) : List Frame → State
  | [] => ⟨[], .done v⟩
  | .arr xs :: fs => ⟨.arr (xs ++ [v]) :: fs, .next⟩
  | .obj fields key :: fs => ⟨.obj (put key v fields) [] :: fs, .next⟩

/-- The first code unit of a value. -/
def begin (fs : List Frame) (c : UInt16) : Option State :=
  match Numeral.empty.next c with
  | some n => some ⟨fs, .number n⟩
  | none =>
    if c = 0x22 then some ⟨fs, .string false []⟩
    else if c = 0x5B then some ⟨.arr [] :: fs, .firstElement⟩
    else if c = 0x7B then some ⟨.obj [] [] :: fs, .firstKey⟩
    else if c = 0x74 then some ⟨fs, .word (text "rue") (.bool true)⟩
    else if c = 0x66 then some ⟨fs, .word (text "alse") (.bool false)⟩
    else if c = 0x6E then some ⟨fs, .word (text "ull") .null⟩
    else none

/-- The end of the innermost array or object. -/
def finish (fs : List Frame) (c : UInt16) : Option State :=
  match fs with
  | .arr xs :: fs => if c = 0x5D then some (complete (.arr xs) fs) else none
  | .obj fields _ :: fs => if c = 0x7D then some (complete (.obj fields) fs) else none
  | [] => none

/-- What comes after a value. -/
def after (s : State) (c : UInt16) : Option State :=
  if isSpace c then some s
  else
    match s.stack with
    | .arr xs :: fs => if c = 0x2C then some ⟨.arr xs :: fs, .value⟩ else finish s.stack c
    | .obj fields key :: fs =>
      if c = 0x2C then some ⟨.obj fields key :: fs, .key⟩ else finish s.stack c
    | [] => none

/-- The end of a string. -/
def endString (fs : List Frame) (isKey : Bool) (s : Text) : Option State :=
  match isKey, fs with
  | false, fs => some (complete (.str s) fs)
  | true, .obj fields _ :: fs => some ⟨.obj fields s :: fs, .colon⟩
  | true, _ => none

/-- The code unit a short escape stands for. -/
def unescape (letter : UInt16) : Option UInt16 :=
  if letter = 0x2F then some 0x2F
  else (shortEscapes.find? fun p => p.2 == letter).map Prod.fst

def step (s : State) (c : UInt16) : Option State :=
  match s.mode with
  | .value => if isSpace c then some s else begin s.stack c
  | .firstElement =>
    if isSpace c then some s else if c = 0x5D then finish s.stack c else begin s.stack c
  | .firstKey =>
    if isSpace c then some s
    else if c = 0x22 then some ⟨s.stack, .string true []⟩ else finish s.stack c
  | .key =>
    if isSpace c then some s else if c = 0x22 then some ⟨s.stack, .string true []⟩ else none
  | .colon => if isSpace c then some s else if c = 0x3A then some ⟨s.stack, .value⟩ else none
  | .next | .done _ => after s c
  | .string isKey t =>
    if c = 0x22 then endString s.stack isKey t
    else if c = 0x5C then some ⟨s.stack, .escape isKey t⟩
    else if c < 0x20 then none
    else some ⟨s.stack, .string isKey (t ++ [c])⟩
  | .escape isKey t =>
    if c = 0x75 then some ⟨s.stack, .hex isKey t 3 0⟩
    else (unescape c).map fun d => ⟨s.stack, .string isKey (t ++ [d])⟩
  | .hex isKey t left v =>
    (hexValue c).map fun d =>
      match left with
      | 0 => ⟨s.stack, .string isKey (t ++ [UInt16.ofNat (16 * v + d)])⟩
      | left + 1 => ⟨s.stack, .hex isKey t left (16 * v + d)⟩
  | .number n =>
    match n.next c with
    | some m => some ⟨s.stack, .number m⟩
    | none => if n.complete then after (complete (.num n.value) s.stack) c else none
  | .word rest v =>
    match rest with
    | [] => none
    | [d] => if c = d then some (complete v s.stack) else none
    | d :: rest => if c = d then some ⟨s.stack, .word rest v⟩ else none

/-- The value, at the end of the text. -/
def State.result (s : State) : Option Value :=
  match s.mode, s.stack with
  | .done v, _ => some v
  | .number n, [] => if n.complete then some (.num n.value) else none
  | _, _ => none

def run (s : State) (cs : Text) : Option State := cs.foldlM step s

/-- The value `JSON.parse` returns; it throws where there is none. -/
def parseValue (cs : Text) : Option Value := (run ⟨[], .value⟩ cs).bind State.result

/-! ## 4. A string is read back -/

@[simp] theorem run_nil (s : State) : run s [] = some s := rfl

theorem run_cons (s : State) (c : UInt16) (cs : Text) :
    run s (c :: cs) = (step s c).bind (run · cs) := rfl

theorem run_append (s : State) (as bs : Text) :
    run s (as ++ bs) = (run s as).bind (run · bs) := List.foldlM_append

theorem hexValue_hexDigit {n : Nat} (h : n < 16) : hexValue (hexDigit n) = some n := by
  have hall : ∀ n < 16, hexValue (hexDigit n) = some n := by decide
  exact hall n h

theorem step_hex (fs : List Frame) (isKey : Bool) (t : Text) (left v n : Nat) :
    step ⟨fs, .hex isKey t (left + 1) v⟩ (hexDigit (n % 16)) =
      some ⟨fs, .hex isKey t left (16 * v + n % 16)⟩ := by
  simp only [step, hexValue_hexDigit (Nat.mod_lt n (by decide)), Option.map_some]

theorem step_hex_last (fs : List Frame) (isKey : Bool) (t : Text) (v n : Nat) :
    step ⟨fs, .hex isKey t 0 v⟩ (hexDigit (n % 16)) =
      some ⟨fs, .string isKey (t ++ [UInt16.ofNat (16 * v + n % 16)])⟩ := by
  simp only [step, hexValue_hexDigit (Nat.mod_lt n (by decide)), Option.map_some]

theorem run_unicodeEscape (fs : List Frame) (isKey : Bool) (t : Text) (c : UInt16) :
    run ⟨fs, .string isKey t⟩ (unicodeEscape c) = some ⟨fs, .string isKey (t ++ [c])⟩ := by
  have hlt : c.toNat < 65536 := c.toNat_lt
  have hsum : 16 * (16 * (16 * (16 * 0 + c.toNat / 4096 % 16) + c.toNat / 256 % 16) +
      c.toNat / 16 % 16) + c.toNat % 16 = c.toNat := by omega
  have hslash : step ⟨fs, .string isKey t⟩ 0x5C = some ⟨fs, .escape isKey t⟩ := rfl
  have hu : step ⟨fs, .escape isKey t⟩ 0x75 = some ⟨fs, .hex isKey t 3 0⟩ := rfl
  simp only [unicodeEscape, run_cons, hslash, hu, Option.bind_some, step_hex, step_hex_last,
    run_nil, hsum, UInt16.ofNat_toNat]

/-- A code unit that has a short escape comes back from it. -/
theorem unescape_lookup {c letter : UInt16} (h : shortEscapes.lookup c = some letter) :
    letter ≠ 0x75 ∧ unescape letter = some c := by
  have hall : ∀ p ∈ shortEscapes, p.2 ≠ 0x75 ∧ unescape p.2 = some p.1 :=
    List.all_iff_forall_prop.mp (by decide)
  obtain ⟨before, rest, hsplit, -⟩ := List.lookup_eq_some_iff.mp h
  exact hall (c, letter) (hsplit ▸ List.mem_append_right _ (List.mem_cons_self ..))

/-- A code unit with no short escape is neither the quote nor the backslash. -/
theorem ne_of_lookup_none {c : UInt16} (h : shortEscapes.lookup c = none) :
    c ≠ 0x22 ∧ c ≠ 0x5C := by
  constructor <;> (rintro rfl; exact absurd h (by decide))

theorem step_plain (fs : List Frame) (isKey : Bool) (t : Text) {c : UInt16} (hquote : c ≠ 0x22)
    (hslash : c ≠ 0x5C) (hctrl : ¬ c < 0x20) :
    step ⟨fs, .string isKey t⟩ c = some ⟨fs, .string isKey (t ++ [c])⟩ := by
  simp only [step, if_neg hquote, if_neg hslash, if_neg hctrl]

theorem run_quoteUnit (fs : List Frame) (isKey : Bool) (t : Text) (c : UInt16) :
    run ⟨fs, .string isKey t⟩ (quoteUnit c) = some ⟨fs, .string isKey (t ++ [c])⟩ := by
  unfold quoteUnit
  split
  · rename_i letter hletter
    obtain ⟨hu, hunescape⟩ := unescape_lookup hletter
    have hslash : step ⟨fs, .string isKey t⟩ 0x5C = some ⟨fs, .escape isKey t⟩ := rfl
    rw [run_cons, hslash, Option.bind_some, run_cons]
    simp only [step, if_neg hu, hunescape, Option.map_some, Option.bind_some, run_nil]
  · rename_i hnone
    obtain ⟨hquote, hslash⟩ := ne_of_lookup_none hnone
    split
    · exact run_unicodeEscape fs isKey t c
    · rename_i hplain
      have hctrl : ¬ c < 0x20 := fun h => hplain (by simp [h])
      rw [run_cons, step_plain fs isKey t hquote hslash hctrl]
      rfl

/-- The two halves of a pair stand for themselves. -/
theorem surrogate_plain {c : UInt16} (h : isLead c = true ∨ isTrail c = true) :
    c ≠ 0x22 ∧ c ≠ 0x5C ∧ ¬ c < 0x20 := by
  have hle : 0xD800 ≤ c.toNat := by
    rcases h with h | h <;>
      · simp only [isLead, isTrail, Bool.and_eq_true, decide_eq_true_eq,
          UInt16.le_iff_toNat_le] at h
        have hlow := h.1
        simp at hlow
        omega
  refine ⟨?_, ?_, ?_⟩
  · intro heq
    subst heq
    exact absurd hle (by decide)
  · intro heq
    subst heq
    exact absurd hle (by decide)
  · intro hlt
    have hnat := UInt16.lt_iff_toNat_lt.mp hlt
    simp at hnat
    omega

theorem run_quoteUnits (fs : List Frame) (isKey : Bool) (t s : Text) :
    run ⟨fs, .string isKey t⟩ (quoteUnits s) = some ⟨fs, .string isKey (t ++ s)⟩ := by
  induction s using quoteUnits.induct generalizing t with
  | case1 => simp [quoteUnits]
  | case2 c => exact run_quoteUnit fs isKey t c
  | case3 c d cs hpair ih =>
      obtain ⟨hlead, htrail⟩ := Bool.and_eq_true_iff.mp hpair
      obtain ⟨hc1, hc2, hc3⟩ := surrogate_plain (.inl hlead)
      obtain ⟨hd1, hd2, hd3⟩ := surrogate_plain (.inr htrail)
      rw [quoteUnits, if_pos hpair, run_cons, step_plain fs isKey t hc1 hc2 hc3, Option.bind_some,
        run_cons, step_plain fs isKey _ hd1 hd2 hd3, Option.bind_some, ih]
      simp
  | case4 c d cs hpair ih =>
      rw [quoteUnits, if_neg hpair, run_append, run_quoteUnit, Option.bind_some, ih]
      simp

/-! ## 5. A value is read back -/

/-- What the machine reads from here on. -/
def result (s : State) (cs : Text) : Option Value := (run s cs).bind State.result

theorem result_of_run {s s' : State} {as : Text} (h : run s as = some s') (bs : Text) :
    result s (as ++ bs) = result s' bs := by
  rw [result, run_append, h]
  rfl

theorem result_cons {s s' : State} {c : UInt16} (h : step s c = some s') (cs : Text) :
    result s (c :: cs) = result s' cs := by
  rw [result, run_cons, h]
  rfl

/-- A text that goes on, if it does, after a complete value. -/
def Ends (cs : Text) : Prop := ∀ c ∈ cs.head?, c = 0x2C ∨ c = 0x5D ∨ c = 0x7D

theorem run_number {n m : Numeral} {cs : Text} (fs : List Frame) (h : n.read cs = some m) :
    run ⟨fs, .number n⟩ cs = some ⟨fs, .number m⟩ := by
  induction cs generalizing n with
  | nil =>
      rw [Numeral.read_nil] at h
      rw [run_nil, Option.some.inj h]
  | cons c cs ih =>
      rw [Numeral.read_cons] at h
      obtain ⟨k, hk, hread⟩ := Option.bind_eq_some_iff.mp h
      have hstep : step ⟨fs, .number n⟩ c = some ⟨fs, .number k⟩ := by simp only [step, hk]
      rw [run_cons, hstep, Option.bind_some, ih hread]

/-- A numeral does not go on with what comes after a value. -/
theorem next_none (n : Numeral) {c : UInt16} (hc : c = 0x2C ∨ c = 0x5D ∨ c = 0x7D) :
    n.next c = none := by
  obtain ⟨phase, negative, significand, places, expNegative, exponent⟩ := n
  rcases hc with rfl | rfl | rfl <;> cases phase <;> rfl

theorem result_number {n : Numeral} (h : n.complete = true) (fs : List Frame) {cs : Text}
    (hends : Ends cs) :
    result ⟨fs, .number n⟩ cs = result (complete (.num n.value) fs) cs := by
  cases cs with
  | nil =>
      match fs with
      | [] => simp only [result, run_nil, Option.bind_some, State.result, complete, h, if_true]
      | .arr xs :: fs => rfl
      | .obj fields key :: fs => rfl
  | cons c cs =>
      have hnext := next_none n (hends c rfl)
      have hstep : step ⟨fs, .number n⟩ c = step (complete (.num n.value) fs) c := by
        match fs with
        | [] => simp only [step, hnext, h, if_true, complete]
        | .arr xs :: fs => simp only [step, hnext, h, if_true, complete]
        | .obj fields key :: fs => simp only [step, hnext, h, if_true, complete]
      rw [result, result, run_cons, run_cons, hstep]

/-- The first code unit of a numeral. -/
theorem begin_number {c : UInt16} {n : Numeral} (h : Numeral.empty.next c = some n)
    (fs : List Frame) :
    isSpace c = false ∧ c ≠ 0x5D ∧ begin fs c = some ⟨fs, .number n⟩ := by
  refine ⟨?_, ?_, by simp only [begin, h]⟩
  · refine Bool.eq_false_iff.mpr fun hspace => ?_
    simp only [isSpace, Bool.or_eq_true, decide_eq_true_eq] at hspace
    rcases hspace with ((rfl | rfl) | rfl) | rfl <;> cases h
  · intro heq
    subst heq
    cases h

/-- A number is printed as a numeral that is read back. -/
theorem numeral_toText (x : Double) :
    ∃ c cs k n, Number.toText (.finite x) = c :: cs ∧ Numeral.empty.next c = some k ∧
      k.read cs = some n ∧ n.complete = true ∧ n.value = .finite x := by
  obtain ⟨n, hread, hcomplete, hvalue⟩ := Numeral.read_toText x
  cases htext : Number.toText (.finite x) with
  | nil =>
      rw [htext, Numeral.read_nil] at hread
      rw [← Option.some.inj hread] at hcomplete
      cases hcomplete
  | cons c cs =>
      rw [htext, Numeral.read_cons] at hread
      obtain ⟨k, hk, hread⟩ := Option.bind_eq_some_iff.mp hread
      exact ⟨c, cs, k, n, rfl, hk, hread, hcomplete, hvalue⟩

/-- No value is printed with a space or a bracket that closes in front. -/
theorem stringify_head (v : Value) :
    ∃ c cs, stringify v = c :: cs ∧ isSpace c = false ∧ c ≠ 0x5D := by
  cases v with
  | null => exact ⟨0x6E, _, rfl, rfl, by decide⟩
  | bool b =>
      cases b with
      | true => exact ⟨0x74, _, rfl, rfl, by decide⟩
      | false => exact ⟨0x66, _, rfl, rfl, by decide⟩
  | num x =>
      cases x with
      | finite x =>
          obtain ⟨c, cs, k, n, htext, hk, -⟩ := numeral_toText x
          obtain ⟨hspace, hclose, -⟩ := begin_number hk []
          refine ⟨c, cs, ?_, hspace, hclose⟩
          rw [stringify, htext]
      | infinity negative => exact ⟨0x6E, _, rfl, rfl, by decide⟩
  | str s => exact ⟨0x22, _, rfl, rfl, by decide⟩
  | arr xs => exact ⟨0x5B, _, rfl, rfl, by decide⟩
  | obj fields => exact ⟨0x7B, _, rfl, rfl, by decide⟩

/-- So an array that has just been opened reads one as its first element. -/
theorem result_firstElement (v : Value) (fs : List Frame) (cs : Text) :
    result ⟨fs, .firstElement⟩ (stringify v ++ cs) = result ⟨fs, .value⟩ (stringify v ++ cs) := by
  obtain ⟨c, rest, htext, hspace, hclose⟩ := stringify_head v
  have hstep : step ⟨fs, .firstElement⟩ c = step ⟨fs, .value⟩ c := by
    simp only [step, hspace, if_neg hclose, Bool.false_eq_true, if_false]
  rw [htext, List.cons_append, result, result, run_cons, run_cons, hstep]

theorem run_string (fs : List Frame) (isKey : Bool) (s : Text) {s' : State}
    (h : endString fs isKey s = some s') :
    run ⟨fs, .string isKey []⟩ (quoteUnits s ++ [0x22]) = some s' := by
  have hend : step ⟨fs, .string isKey s⟩ 0x22 = some s' := h
  rw [run_append, run_quoteUnits, List.nil_append, Option.bind_some, run_cons, hend]
  rfl

/-- The key of a property, read up to its value. -/
theorem result_key (before : Fields) (key k : Text) (fs : List Frame) (cs : Text) :
    result ⟨.obj before key :: fs, .string true []⟩ (quoteUnits k ++ 0x22 :: 0x3A :: cs) =
      result ⟨.obj before k :: fs, .value⟩ cs := by
  have hrun := run_string (.obj before key :: fs) true k rfl
  have hcolon : step ⟨.obj before k :: fs, .colon⟩ 0x3A = some ⟨.obj before k :: fs, .value⟩ := rfl
  rw [List.append_cons, result_of_run hrun, result_cons hcolon]

theorem ends_list (xs : List Value) (cs : Text) : Ends (stringifyList xs ++ 0x5D :: cs) := by
  cases xs <;> simp [stringifyList, Ends]

theorem ends_fields (fields : Fields) (cs : Text) :
    Ends (stringifyFields fields ++ 0x7D :: cs) := by
  cases fields <;> simp [stringifyFields, Ends]

mutual

/-- **A printed value is read back, wherever it stands.** -/
theorem result_value : ∀ (v : Value) (fs : List Frame) {rest : Text}, v.Canonical → Ends rest →
    result ⟨fs, .value⟩ (stringify v ++ rest) = result (complete v.printed fs) rest
  | .null, fs, rest, _, _ => by
      have hrun : run ⟨fs, .value⟩ (text "null") = some (complete .null fs) := rfl
      exact result_of_run hrun rest
  | .bool true, fs, rest, _, _ => by
      have hrun : run ⟨fs, .value⟩ (text "true") = some (complete (.bool true) fs) := rfl
      exact result_of_run hrun rest
  | .bool false, fs, rest, _, _ => by
      have hrun : run ⟨fs, .value⟩ (text "false") = some (complete (.bool false) fs) := rfl
      exact result_of_run hrun rest
  | .num (.infinity _), fs, rest, _, _ => by
      have hrun : run ⟨fs, .value⟩ (text "null") = some (complete .null fs) := rfl
      exact result_of_run hrun rest
  | .num (.finite x), fs, rest, _, hends => by
      obtain ⟨c, cs, k, n, htext, hk, hread, hcomplete, hvalue⟩ := numeral_toText x
      obtain ⟨hspace, -, hbegin⟩ := begin_number hk fs
      have hstep : step ⟨fs, .value⟩ c = some ⟨fs, .number k⟩ := by
        simp only [step, hspace, hbegin, Bool.false_eq_true, if_false]
      rw [stringify, htext, List.cons_append, result_cons hstep,
        result_of_run (run_number fs hread), result_number hcomplete fs hends, hvalue]
      rfl
  | .str s, fs, rest, _, _ => by
      have hrun := run_string fs false s rfl
      have hquote : step ⟨fs, .value⟩ 0x22 = some ⟨fs, .string false []⟩ := rfl
      rw [stringify, quote, List.cons_append, result_cons hquote, result_of_run hrun]
      rfl
  | .arr [], fs, rest, _, _ => by
      have hrun : run ⟨fs, .value⟩ (text "[]") = some (complete (.arr []) fs) := rfl
      exact result_of_run hrun rest
  | .arr (x :: xs), fs, rest, hcanonical, _ => by
      obtain ⟨hx, hxs⟩ := hcanonical
      have hopen : step ⟨fs, .value⟩ 0x5B = some ⟨.arr [] :: fs, .firstElement⟩ := rfl
      have hfirst := result_value x (.arr [] :: fs) hx (ends_list xs rest)
      have htail := result_list xs [x.printed] fs rest hxs
      have htext : stringify (.arr (x :: xs)) ++ rest =
          0x5B :: (stringify x ++ (stringifyList xs ++ 0x5D :: rest)) := by
        simp [stringify, stringifyList]
      rw [htext, result_cons hopen, result_firstElement, hfirst]
      exact htail
  | .obj [], fs, rest, _, _ => by
      have hrun : run ⟨fs, .value⟩ (text "\x7b\x7d") = some (complete (.obj []) fs) := rfl
      exact result_of_run hrun rest
  | .obj ((k, x) :: fields), fs, rest, hcanonical, _ => by
      obtain ⟨hkeys, hx, hfields⟩ := hcanonical
      obtain ⟨hk, hkeys⟩ := List.pairwise_cons.mp hkeys
      have hopen : step ⟨fs, .value⟩ 0x7B = some ⟨.obj [] [] :: fs, .firstKey⟩ := rfl
      have hquote : step ⟨.obj [] [] :: fs, .firstKey⟩ 0x22 =
          some ⟨.obj [] [] :: fs, .string true []⟩ := rfl
      have hfirst := result_value x (.obj [] k :: fs) hx (ends_fields fields rest)
      have hdone : ∀ p ∈ [(k, x.printed)], ∀ q ∈ fields, InOrder p.1 q.1 := by
        intro p hp q hq
        rw [List.mem_singleton.mp hp]
        exact hk q.1 (List.mem_map_of_mem hq)
      have htail := result_fields fields [(k, x.printed)] [] fs rest hfields hkeys hdone
      have htext : stringify (.obj ((k, x) :: fields)) ++ rest =
          0x7B :: 0x22 :: (quoteUnits k ++ 0x22 :: 0x3A ::
            (stringify x ++ (stringifyFields fields ++ 0x7D :: rest))) := by
        simp [stringify, stringifyFields, quote]
      rw [htext, result_cons hopen, result_cons hquote, result_key, hfirst]
      exact htail

/-- So are the elements of an array, after those `before` them. -/
theorem result_list : ∀ (xs before : List Value) (fs : List Frame) (rest : Text),
    CanonicalList xs →
    result ⟨.arr before :: fs, .next⟩ (stringifyList xs ++ 0x5D :: rest) =
      result (complete (.arr (before ++ printedList xs)) fs) rest
  | [], before, fs, rest, _ => by
      have hclose : step ⟨.arr before :: fs, .next⟩ 0x5D = some (complete (.arr before) fs) := rfl
      rw [stringifyList, printedList, List.nil_append, List.append_nil, result_cons hclose]
  | x :: xs, before, fs, rest, hcanonical => by
      obtain ⟨hx, hxs⟩ := hcanonical
      have hcomma : step ⟨.arr before :: fs, .next⟩ 0x2C = some ⟨.arr before :: fs, .value⟩ := rfl
      have hfirst := result_value x (.arr before :: fs) hx (ends_list xs rest)
      have htail := result_list xs (before ++ [x.printed]) fs rest hxs
      rw [List.append_assoc, List.singleton_append] at htail
      rw [stringifyList, List.cons_append, List.append_assoc, result_cons hcomma, hfirst,
        printedList]
      exact htail

theorem result_fields : ∀ (fields before : Fields) (key : Text) (fs : List Frame) (rest : Text),
    CanonicalFields fields → (fields.map Prod.fst).Pairwise InOrder →
    (∀ p ∈ before, ∀ q ∈ fields, InOrder p.1 q.1) →
    result ⟨.obj before key :: fs, .next⟩ (stringifyFields fields ++ 0x7D :: rest) =
      result (complete (.obj (before ++ printedFields fields)) fs) rest
  | [], before, key, fs, rest, _, _, _ => by
      have hclose : step ⟨.obj before key :: fs, .next⟩ 0x7D =
        some (complete (.obj before) fs) := rfl
      rw [stringifyFields, printedFields, List.nil_append, List.append_nil, result_cons hclose]
  | (k, x) :: fields, before, key, fs, rest, hcanonical, hkeys, hbefore => by
      obtain ⟨hx, hfields⟩ := hcanonical
      obtain ⟨hk, hkeys⟩ := List.pairwise_cons.mp hkeys
      have hcomma : step ⟨.obj before key :: fs, .next⟩ 0x2C =
        some ⟨.obj before key :: fs, .key⟩ := rfl
      have hquote : step ⟨.obj before key :: fs, .key⟩ 0x22 =
        some ⟨.obj before key :: fs, .string true []⟩ := rfl
      have hfirst := result_value x (.obj before k :: fs) hx (ends_fields fields rest)
      have hput : put k x.printed before = before ++ [(k, x.printed)] :=
        put_append fun p hp => hbefore p hp (k, x) (List.mem_cons_self ..)
      have hdone : ∀ p ∈ before ++ [(k, x.printed)], ∀ q ∈ fields, InOrder p.1 q.1 := by
        intro p hp q hq
        rcases List.mem_append.mp hp with hp | hp
        · exact hbefore p hp q (List.mem_cons_of_mem _ hq)
        · rw [List.mem_singleton.mp hp]
          exact hk q.1 (List.mem_map_of_mem hq)
      have htail := result_fields fields _ [] fs rest hfields hkeys hdone
      have htext : stringifyFields ((k, x) :: fields) ++ 0x7D :: rest =
          0x2C :: 0x22 :: (quoteUnits k ++ 0x22 :: 0x3A ::
            (stringify x ++ (stringifyFields fields ++ 0x7D :: rest))) := by
        simp [stringifyFields, quote]
      rw [List.append_assoc, List.singleton_append] at htail
      rw [htext, result_cons hcomma, result_cons hquote, result_key, hfirst, complete, hput,
        printedFields]
      exact htail

end

/-- **What is printed is read back, with `null` for every infinity.** -/
theorem parse_stringify {v : Value} (h : v.Canonical) :
    parseValue (stringify v) = some v.printed := by
  have hends : Ends [] := by simp [Ends]
  have hvalue := result_value v [] h hends
  rw [List.append_nil] at hvalue
  exact hvalue

/-! ## 6. What is read -/

def Frame.Canonical : Frame → Prop
  | .arr xs => (Value.arr xs).Canonical
  | .obj fields _ => (Value.obj fields).Canonical

/-- After `n` code units: a string that has been read is shorter than they are, and what is
    complete is canonical. -/
def Mode.Sound (n : Nat) : Mode → Prop
  | .string _ t | .escape _ t | .hex _ t _ _ => t.length < n
  | .word _ v => v.Canonical ∧ ∀ t, v ≠ .str t
  | .done v => v.Canonical ∧ ∀ t, v = .str t → t.length < n
  | _ => True

structure State.Sound (n : Nat) (s : State) : Prop where
  stack : ∀ f ∈ s.stack, f.Canonical
  mode : s.mode.Sound n

theorem Mode.Sound.mono {n m : Nat} (hle : n ≤ m) {mode : Mode} (h : mode.Sound n) :
    mode.Sound m := by
  cases mode with
  | string isKey t => exact Nat.lt_of_lt_of_le h hle
  | escape isKey t => exact Nat.lt_of_lt_of_le h hle
  | hex isKey t left v => exact Nat.lt_of_lt_of_le h hle
  | word rest v => exact h
  | done v => exact ⟨h.1, fun t ht => Nat.lt_of_lt_of_le (h.2 t ht) hle⟩
  | value => trivial
  | firstElement => trivial
  | firstKey => trivial
  | key => trivial
  | colon => trivial
  | next => trivial
  | number m => trivial

theorem complete_sound {n : Nat} {v : Value} {fs : List Frame} (hv : v.Canonical)
    (hstr : ∀ t, v = .str t → t.length < n) (hfs : ∀ f ∈ fs, f.Canonical) :
    (complete v fs).Sound n := by
  match fs with
  | [] => exact ⟨hfs, hv, hstr⟩
  | .arr xs :: fs =>
      obtain ⟨hxs, hfs⟩ := List.forall_mem_cons.mp hfs
      refine ⟨List.forall_mem_cons.mpr ⟨?_, hfs⟩, trivial⟩
      refine (canonicalList_iff _).mpr fun x hx => ?_
      rcases List.mem_append.mp hx with hx | hx
      · exact (canonicalList_iff xs).mp hxs x hx
      · rw [List.mem_singleton.mp hx]
        exact hv
  | .obj fields key :: fs =>
      obtain ⟨⟨hkeys, hfields⟩, hfs⟩ := List.forall_mem_cons.mp hfs
      refine ⟨List.forall_mem_cons.mpr ⟨⟨canonical_put hkeys, ?_⟩, hfs⟩, trivial⟩
      refine (canonicalFields_iff _).mpr fun p hp => ?_
      rcases mem_put hp with ⟨-, hp⟩ | hp
      · rw [hp]
        exact hv
      · exact (canonicalFields_iff fields).mp hfields p hp

theorem finish_sound {n : Nat} {fs : List Frame} {c : UInt16} {s' : State}
    (hfs : ∀ f ∈ fs, f.Canonical) (h : finish fs c = some s') : s'.Sound n := by
  unfold finish at h
  split at h
  · obtain ⟨hxs, hfs⟩ := List.forall_mem_cons.mp hfs
    split at h
    · rw [← Option.some.inj h]
      exact complete_sound hxs (fun t ht => by cases ht) hfs
    · cases h
  · obtain ⟨hfields, hfs⟩ := List.forall_mem_cons.mp hfs
    split at h
    · rw [← Option.some.inj h]
      exact complete_sound hfields (fun t ht => by cases ht) hfs
    · cases h
  · cases h

theorem after_sound {n : Nat} {s s' : State} {c : UInt16} (hs : s.Sound n)
    (h : after s c = some s') : s'.Sound n := by
  obtain ⟨stack, mode⟩ := s
  unfold after at h
  split at h
  · rw [← Option.some.inj h]
    exact hs
  · split at h
    · split at h
      · rename_i hstack _
        rw [← Option.some.inj h]
        exact ⟨hstack ▸ hs.stack, trivial⟩
      · exact finish_sound hs.stack h
    · split at h
      · rename_i hstack _
        rw [← Option.some.inj h]
        exact ⟨hstack ▸ hs.stack, trivial⟩
      · exact finish_sound hs.stack h
    · cases h

theorem begin_sound {n : Nat} {fs : List Frame} {c : UInt16} {s' : State}
    (hfs : ∀ f ∈ fs, f.Canonical) (h : begin fs c = some s') : s'.Sound (n + 1) := by
  have harr : (Frame.arr []).Canonical := trivial
  have hobj : (Frame.obj [] []).Canonical := ⟨.nil, trivial⟩
  unfold begin at h
  split at h
  · rw [← Option.some.inj h]
    exact ⟨hfs, trivial⟩
  · repeat' split at h
    all_goals cases h
    · exact ⟨hfs, Nat.succ_pos n⟩
    · exact ⟨List.forall_mem_cons.mpr ⟨harr, hfs⟩, trivial⟩
    · exact ⟨List.forall_mem_cons.mpr ⟨hobj, hfs⟩, trivial⟩
    all_goals exact ⟨hfs, trivial, fun t ht => by cases ht⟩

theorem endString_sound {n : Nat} {fs : List Frame} {isKey : Bool} {t : Text} {s' : State}
    (hfs : ∀ f ∈ fs, f.Canonical) (ht : t.length < n) (h : endString fs isKey t = some s') :
    s'.Sound n := by
  unfold endString at h
  split at h
  · rw [← Option.some.inj h]
    refine complete_sound trivial (fun u hu => ?_) hfs
    rw [← Value.str.inj hu]
    exact ht
  · obtain ⟨hfields, hfs⟩ := List.forall_mem_cons.mp hfs
    rw [← Option.some.inj h]
    exact ⟨List.forall_mem_cons.mpr ⟨hfields, hfs⟩, trivial⟩
  · cases h

/-- A space leaves the machine as it is. -/
theorem space_sound {n : Nat} {s s' : State} {c : UInt16} {next : Option State}
    (hs : s.Sound n) (hnext : next = some s' → s'.Sound (n + 1))
    (h : (if isSpace c then some s else next) = some s') : s'.Sound (n + 1) := by
  split at h
  · rw [← Option.some.inj h]
    exact ⟨hs.stack, hs.mode.mono (Nat.le_succ n)⟩
  · exact hnext h

/-- The opening quote of a key. -/
theorem key_sound {n : Nat} {fs : List Frame} {s' : State} (hfs : ∀ f ∈ fs, f.Canonical)
    (h : (some ⟨fs, .string true []⟩ : Option State) = some s') : s'.Sound (n + 1) := by
  rw [← Option.some.inj h]
  exact ⟨hfs, Nat.succ_pos n⟩

/-- One more code unit. -/
theorem step_sound {n : Nat} {s s' : State} {c : UInt16} (hs : s.Sound n)
    (h : step s c = some s') : s'.Sound (n + 1) := by
  obtain ⟨fs, mode⟩ := s
  have hfs : ∀ f ∈ fs, f.Canonical := hs.stack
  have hlater : (⟨fs, mode⟩ : State).Sound (n + 1) := ⟨hfs, hs.mode.mono (Nat.le_succ n)⟩
  cases mode with
  | value => exact space_sound hs (begin_sound hfs) h
  | firstElement =>
      refine space_sound hs (fun h => ?_) h
      split at h
      · exact finish_sound hfs h
      · exact begin_sound hfs h
  | firstKey =>
      refine space_sound hs (fun h => ?_) h
      split at h
      · exact key_sound hfs h
      · exact finish_sound hfs h
  | key =>
      refine space_sound hs (fun h => ?_) h
      split at h
      · exact key_sound hfs h
      · cases h
  | colon =>
      refine space_sound hs (fun h => ?_) h
      split at h
      · rw [← Option.some.inj h]
        exact ⟨hfs, trivial⟩
      · cases h
  | next => exact after_sound hlater h
  | done v => exact after_sound hlater h
  | string isKey t =>
      have ht : t.length < n := hs.mode
      simp only [step] at h
      split at h
      · exact endString_sound hfs (Nat.lt_succ_of_lt ht) h
      split at h
      · rw [← Option.some.inj h]
        exact ⟨hfs, Nat.lt_succ_of_lt ht⟩
      split at h
      · cases h
      · rw [← Option.some.inj h]
        refine ⟨hfs, ?_⟩
        simpa [Mode.Sound] using ht
  | escape isKey t =>
      have ht : t.length < n := hs.mode
      simp only [step] at h
      split at h
      · rw [← Option.some.inj h]
        exact ⟨hfs, Nat.lt_succ_of_lt ht⟩
      · obtain ⟨d, -, hd⟩ := Option.map_eq_some_iff.mp h
        rw [← hd]
        refine ⟨hfs, ?_⟩
        simpa [Mode.Sound] using ht
  | hex isKey t left v =>
      have ht : t.length < n := hs.mode
      simp only [step] at h
      obtain ⟨d, -, hd⟩ := Option.map_eq_some_iff.mp h
      rw [← hd]
      cases left with
      | zero =>
          refine ⟨hfs, ?_⟩
          simpa [Mode.Sound] using ht
      | succ left => exact ⟨hfs, Nat.lt_succ_of_lt ht⟩
  | number m =>
      simp only [step] at h
      split at h
      · rw [← Option.some.inj h]
        exact ⟨hfs, trivial⟩
      split at h
      · have hnum : (complete (.num m.value) fs).Sound (n + 1) :=
          complete_sound trivial (fun t ht => by cases ht) hfs
        exact after_sound hnum h
      · cases h
  | word rest v =>
      obtain ⟨hv, hstr⟩ := hs.mode
      simp only [step] at h
      split at h
      · cases h
      · split at h
        · rw [← Option.some.inj h]
          exact complete_sound hv (fun t ht => absurd ht (hstr t)) hfs
        · cases h
      · split at h
        · rw [← Option.some.inj h]
          exact ⟨hfs, hv, hstr⟩
        · cases h

theorem run_sound {n : Nat} {s s' : State} {cs : Text} (hs : s.Sound n)
    (h : run s cs = some s') : s'.Sound (n + cs.length) := by
  induction cs generalizing n s with
  | nil =>
      rw [← Option.some.inj h]
      exact hs
  | cons c cs ih =>
      rw [run_cons] at h
      obtain ⟨s₁, hstep, hrun⟩ := Option.bind_eq_some_iff.mp h
      have hsound := ih (step_sound hs hstep) hrun
      rw [List.length_cons, Nat.add_comm cs.length 1, ← Nat.add_assoc]
      exact hsound

/-- What is read is canonical, and a string is shorter than its text. -/
theorem parse_sound {cs : Text} {v : Value} (h : parseValue cs = some v) :
    v.Canonical ∧ ∀ t, v = .str t → t.length < cs.length := by
  obtain ⟨s, hrun, hresult⟩ := Option.bind_eq_some_iff.mp h
  have hstart : (⟨[], .value⟩ : State).Sound 0 := ⟨List.forall_mem_nil _, trivial⟩
  have hsound := run_sound hstart hrun
  rw [Nat.zero_add] at hsound
  unfold State.result at hresult
  split at hresult
  · rename_i w hmode
    have hdone : Mode.Sound cs.length (.done w) := hmode ▸ hsound.mode
    rw [← Option.some.inj hresult]
    exact hdone
  · split at hresult
    · rw [← Option.some.inj hresult]
      exact ⟨trivial, fun t ht => by cases ht⟩
    · cases hresult
  · cases hresult

/-- **No text is read as the string that it is itself.** -/
theorem parse_ne_str (cs : Text) : parseValue cs ≠ some (.str cs) := by
  intro h
  exact Nat.lt_irrefl _ ((parse_sound h).2 cs rfl)

/-! ## 7. Reading a value -/

/-- A value as JavaScript can have it. -/
structure Json where
  value : Value
  canonical : value.Canonical

/-- `value?.key` -/
def get? (v : Option Value) (key : Text) : Option Value :=
  match v with
  | some (.obj fields) => fields.lookup key
  | _ => none

def truthy : Option Value → Bool
  | none => false
  | some .null => false
  | some (.bool b) => b
  | some (.num (.finite x)) => x.units ≠ 0
  | some (.num (.infinity _)) => true
  | some (.str s) => s ≠ []
  | some (.arr _) => true
  | some (.obj _) => true

mutual

/-- `String(value)`; an object with a `toString` of its own, which is no function here, has no
    text, and the conversion throws. -/
def Value.toText : Value → Option Text
  | .null => some (text "null")
  | .bool b => some (text (if b then "true" else "false"))
  | .num x => some x.toText
  | .str s => some s
  | .arr xs => (elementTexts xs).map fun ts => ([(0x2C : UInt16)].intercalate ts)
  | .obj fields =>
    if (fields.lookup (text "toString")).isSome then none else some (text "[object Object]")

/-- The elements of an array as `String` joins them: `null` as nothing. -/
def elementTexts : List Value → Option (List Text)
  | [] => some []
  | .null :: xs => (elementTexts xs).map ([] :: ·)
  | x :: xs => x.toText.bind fun t => (elementTexts xs).map (t :: ·)

end

theorem get?_canonical {v w : Value} {key : Text} (hv : v.Canonical)
    (h : get? (some v) key = some w) : w.Canonical := by
  cases v with
  | obj fields =>
      obtain ⟨before, rest, hsplit, -⟩ := List.lookup_eq_some_iff.mp h
      exact (canonicalFields_iff fields).mp hv.2 (key, w) (hsplit ▸ by simp)
  | null => cases h
  | bool b => cases h
  | num x => cases h
  | str s => cases h
  | arr xs => cases h

end JsonText
