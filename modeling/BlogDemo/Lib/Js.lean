/-
  File:      BlogDemo/Lib/Js.lean
  Subject:   JAVASCRIPT VALUES AS JSON CARRIES THEM, and what a handler does with them: reading a
             property, truthiness, `===`, `String(x)`, `JSON.parse`.

  A value that is read is an `Option Json`; `none` is `undefined`. A number is an exact integer
  or, when it is none (a fraction, beyond the exact integers, an infinity), the text `String(x)`
  prints for it, which determines it. `JSON.parse` is modelled on what it makes of a text
  (`Text`): every use of a body goes through it.
-/
import Mathlib.Data.List.Basic

namespace Js

/-- A number: an exact integer, or any other by the text it prints as. -/
inductive Number where
  | int (z : Int)
  | text (t : String)
  deriving DecidableEq, Repr

/-- A JSON value. The keys of an object are those `JSON.parse` keeps, each once. -/
inductive Json where
  | null
  | bool (b : Bool)
  | num (n : Number)
  | str (s : String)
  | arr (xs : List Json)
  | obj (fields : List (String × Json))
  deriving Repr

/-! ## 1. Equality of values is decidable -/

mutual

/-- The Boolean test of equality. -/
def Json.eqb : Json → Json → Bool
  | .null, .null => true
  | .bool a, .bool b => a == b
  | .num a, .num b => a == b
  | .str a, .str b => a == b
  | .arr xs, .arr ys => Json.eqbList xs ys
  | .obj xs, .obj ys => Json.eqbFields xs ys
  | _, _ => false

def Json.eqbList : List Json → List Json → Bool
  | [], [] => true
  | x :: xs, y :: ys => x.eqb y && Json.eqbList xs ys
  | _, _ => false

def Json.eqbFields : List (String × Json) → List (String × Json) → Bool
  | [], [] => true
  | (k, x) :: xs, (l, y) :: ys => k == l && x.eqb y && Json.eqbFields xs ys
  | _, _ => false

end

mutual

theorem Json.eqb_iff : ∀ a b : Json, a.eqb b = true ↔ a = b
  | .null, b => by cases b <;> simp [Json.eqb]
  | .bool _, b => by cases b <;> simp [Json.eqb]
  | .num _, b => by cases b <;> simp [Json.eqb]
  | .str _, b => by cases b <;> simp [Json.eqb]
  | .arr xs, b => by
      cases b with
      | arr ys => simp only [Json.eqb, Json.eqbList_iff xs ys, Json.arr.injEq]
      | _ => simp [Json.eqb]
  | .obj xs, b => by
      cases b with
      | obj ys => simp only [Json.eqb, Json.eqbFields_iff xs ys, Json.obj.injEq]
      | _ => simp [Json.eqb]

theorem Json.eqbList_iff : ∀ xs ys : List Json, Json.eqbList xs ys = true ↔ xs = ys
  | [], ys => by cases ys <;> simp [Json.eqbList]
  | x :: xs, ys => by
      cases ys with
      | nil => simp [Json.eqbList]
      | cons y ys =>
        simp only [Json.eqbList, Bool.and_eq_true, Json.eqb_iff x y, Json.eqbList_iff xs ys,
          List.cons.injEq]

theorem Json.eqbFields_iff :
    ∀ xs ys : List (String × Json), Json.eqbFields xs ys = true ↔ xs = ys
  | [], ys => by cases ys <;> simp [Json.eqbFields]
  | (k, x) :: xs, ys => by
      cases ys with
      | nil => simp [Json.eqbFields]
      | cons y ys =>
        obtain ⟨l, y⟩ := y
        simp only [Json.eqbFields, Bool.and_eq_true, beq_iff_eq, Json.eqb_iff x y,
          Json.eqbFields_iff xs ys, List.cons.injEq, Prod.mk.injEq]

end

instance : DecidableEq Json := fun a b => decidable_of_iff _ (Json.eqb_iff a b)

/-! ## 2. Reading and comparing -/

/-- `value[key]`, for a value that is neither `null` nor `undefined`. -/
def Json.get? : Json → String → Option Json
  | .obj fields, key => fields.lookup key
  | _, _ => none

/-- `!!value`. -/
def truthy : Option Json → Bool
  | none => false
  | some .null => false
  | some (.bool b) => b
  | some (.num (.int z)) => z != 0
  | some (.num (.text t)) => t != "NaN"
  | some (.str s) => s != ""
  | some (.arr _) => true
  | some (.obj _) => true

@[simp] theorem truthy_none : truthy none = false := rfl

theorem truthy_isSome {v : Option Json} (h : truthy v = true) : ∃ x, v = some x := by
  cases v with
  | none => cases h
  | some x => exact ⟨x, rfl⟩

/-- `a === b`, for two values that come from different places: arrays and objects are compared by
    identity, so two of them are never the same. -/
def strictEq : Option Json → Option Json → Bool
  | none, none => true
  | some .null, some .null => true
  | some (.bool a), some (.bool b) => a == b
  | some (.num a), some (.num b) => a == b
  | some (.str a), some (.str b) => a == b
  | _, _ => false

/-- Values that are `===` are equal. -/
theorem eq_of_strictEq {a b : Option Json} (h : strictEq a b = true) : a = b := by
  unfold strictEq at h
  split at h <;> simp_all

mutual

/-- `String(value)`. -/
def Json.toStr : Json → String
  | .null => "null"
  | .bool b => if b then "true" else "false"
  | .num (.int z) => toString z
  | .num (.text t) => t
  | .str s => s
  | .arr xs => ",".intercalate (Json.elements xs)
  | .obj _ => "[object Object]"

/-- The elements of an array as `String` joins them: `null` prints as nothing. -/
def Json.elements : List Json → List String
  | [] => []
  | .null :: xs => "" :: Json.elements xs
  | x :: xs => x.toStr :: Json.elements xs

end

mutual

/-- The value has a `toString()`: an object with a property of that name has none, since JSON holds
    no functions. An array prints its elements. -/
def Json.prints : Json → Bool
  | .arr xs => Json.allPrint xs
  | .obj fields => (fields.lookup "toString").isNone
  | _ => true

def Json.allPrint : List Json → Bool
  | [] => true
  | x :: xs => x.prints && Json.allPrint xs

end

/-- `String(value)`, of a value that may be `undefined`. -/
def string : Option Json → String
  | none => "undefined"
  | some v => v.toStr

@[simp] theorem string_nat (n : Nat) : string (some (.num (.int n))) = toString n := rfl

/-- `text.includes(part)` -/
def includes (text part : String) : Bool := text.toList.tails.any part.toList.isPrefixOf

/-- `text.startsWith(part)` -/
def startsWith (text part : String) : Bool := part.toList.isPrefixOf text.toList

/-- `text.slice(part.length)` -/
def slice (text part : String) : String := String.ofList (text.toList.drop part.length)

theorem startsWith_append (part rest : String) : startsWith (part ++ rest) part = true := by
  rw [startsWith, String.toList_append]
  exact List.isPrefixOf_iff_prefix.mpr (List.prefix_append _ _)

theorem slice_append (part rest : String) : slice (part ++ rest) part = rest := by
  rw [slice, String.toList_append, ← String.length_toList, List.drop_left, String.ofList_toList]

/-- A text that begins with `part` is `part` and the rest. -/
theorem eq_append_slice {text part : String} (h : startsWith text part = true) :
    text.toList = part.toList ++ (slice text part).toList := by
  obtain ⟨rest, hrest⟩ := List.isPrefixOf_iff_prefix.mp h
  rw [slice, String.toList_ofList, ← hrest, ← String.length_toList, List.drop_left]

/-- The sum of two exact integers. -/
def plus : Json → Json → Option Json
  | .num (.int a), .num (.int b) => some (.num (.int (a + b)))
  | _, _ => none

/-! ## 4. Errors and `JSON.parse` -/

/-- A thrown error. -/
structure Error where
  name : String
  message : String
  deriving DecidableEq, Repr

/-- A text, by what `JSON.parse` makes of it: a value, or a `SyntaxError` with its message. -/
inductive Text where
  | malformed (message : String)
  | json (value : Json)
  deriving Repr

/-- `JSON.parse(text)`. -/
def parse : Text → Except Error Json
  | .malformed message => .error ⟨"SyntaxError", message⟩
  | .json value => .ok value

/-- `const { key, … } = value` reads properties of anything but `null`. -/
def destructure (key : String) : Json → Except Error Json
  | .null => .error ⟨"TypeError", s!"Cannot destructure property '{key}' of 'JSON.parse(...)' as it is null."⟩
  | v => .ok v

end Js
