/-
  File:      BlogDemo/Lib/Mongoose.lean
  Subject:   MONGOOSE MODELS OVER ONE MONGODB COLLECTION, in strict mode with timestamps: a document
             built from a JSON object and saved, and a document updated by id from a JSON object.

  * `ObjectId` -- twelve bytes, as the 24 lower-case hexadecimal digits they print as; it is read back
    from them (`ofHex_toString`), and two are the same only if their bytes are (`ofBytes_inj`);
  * `Schema` -- the paths of a model; a key that is none of them is dropped, every other is cast;
  * `Value` -- what a path holds: of a Mixed path any JSON value, as it was given (`Value.ofJson`);
  * `Package` -- what is left open: the casts of unusual values, and updates that are not flat;
  * `construct`, `validate`, `stamp` -- `new Model(fields)` and what `save` does before it inserts;
    `updateOf` -- what `findByIdAndUpdate` makes of a JSON object;
  * `Collection` -- the documents by `_id`, and the four operations on one of them.
-/
import BlogDemo.Lib.Js
import BlogDemo.Lib.Keyed
import BlogDemo.Lib.Attrs
import Mathlib.Data.Bool.AllAny

namespace Mongoose

open Js Attrs

/-! ## 1. Values and casts -/

def hexDigits : List Char := "0123456789abcdef".toList

/-- **An ObjectId**, by its `toString()`. -/
structure ObjectId where
  digits : List Char
  length : digits.length = 24
  hex : digits.all hexDigits.contains = true
  deriving DecidableEq

def ObjectId.toString (o : ObjectId) : String := String.ofList o.digits

/-- `new ObjectId(text)`: 24 hexadecimal digits in either case. -/
def ObjectId.ofHex? (text : String) : Option ObjectId :=
  if h : (text.toList.map Char.toLower).length = 24 ∧
      (text.toList.map Char.toLower).all hexDigits.contains = true then
    some ⟨_, h.1, h.2⟩
  else none

/-- An ObjectId is read back from what it prints as. -/
theorem ObjectId.ofHex_toString (o : ObjectId) : ObjectId.ofHex? o.toString = some o := by
  have hlower : ∀ c ∈ hexDigits, c.toLower = c := List.all_iff_forall_prop.mp (by decide)
  have hdigits : o.toString.toList.map Char.toLower = o.digits := by
    rw [ObjectId.toString, String.toList_ofList]
    refine (List.map_congr_left fun c hc => ?_).trans (List.map_id _)
    exact hlower c (List.contains_iff_mem.mp (List.all_eq_true.mp o.hex c hc))
  obtain ⟨digits, hlength, hhex⟩ := o
  simp only [ObjectId.ofHex?, hdigits, hlength, hhex, and_self, dite_true]

theorem ObjectId.toString_inj {o o' : ObjectId} (h : o.toString = o'.toString) : o = o' := by
  have hread := o.ofHex_toString
  rw [h, o'.ofHex_toString] at hread
  exact (Option.some.inj hread).symm

def hexDigit (n : Nat) : Char := hexDigits.getD n '0'

/-- The two digits of an octet. -/
def octetDigits (b : UInt8) : List Char := [hexDigit (b.toNat / 16), hexDigit (b.toNat % 16)]

theorem hexDigit_mem {n : Nat} (h : n < 16) : hexDigits.contains (hexDigit n) = true := by
  have hall : ∀ n < 16, hexDigits.contains (hexDigit n) = true := by decide
  exact hall n h

/-- **The ObjectId of twelve octets**: `toHexString()`. -/
def ObjectId.ofBytes (bytes : Vector UInt8 12) : ObjectId where
  digits := bytes.toList.flatMap octetDigits
  length := by simp [octetDigits, List.length_flatMap]
  hex := by
    simp only [List.all_flatMap, List.all_eq_true]
    intro b _ c hc
    have hb : b.toNat < 256 := b.toNat_lt
    simp only [octetDigits, List.mem_cons, List.not_mem_nil, or_false] at hc
    rcases hc with rfl | rfl
    · exact hexDigit_mem (by omega)
    · exact hexDigit_mem (by omega)

inductive Value where
  | null
  | objectId (o : ObjectId)
  | string (s : String)
  /-- Milliseconds since the epoch. -/
  | date (ms : Int)
  | number (n : Number)
  /-- A Boolean, an array or an object. -/
  | json (v : Json)
  deriving DecidableEq

/-- A JSON value as it is stored where nothing casts it. -/
def Value.ofJson : Json → Value
  | .null => .null
  | .str s => .string s
  | .num n => .number n
  | v => .json v

/-- A stored value as JSON has it, an ObjectId by its digits; dates aside. -/
def Value.toJson? : Value → Option Json
  | .objectId o => some (.str o.toString)
  | .string s => some (.str s)
  | .number n => some (.num n)
  | .json v => some v
  | _ => none

inductive SchemaType where
  | objectId
  | string
  | date
  | number
  /-- No type: the path keeps what it is given. -/
  | mixed
  deriving DecidableEq, Repr

/-- What Mongoose throws or rejects with. -/
inductive Failure where
  | cast (path : String)
  /-- The validation of a document, by the path that fails it and the text of that. -/
  | validation (path reason : String)
  /-- An error of the driver or the server, by its name and message. -/
  | driver (e : Error)
  deriving DecidableEq

/-- The fields of a JSON object. -/
abbrev Fields := List (String × Json)

/-- **What the model leaves to the package**: the casts of values other than strings to an
    ObjectId, of anything but `null` to a date or a number (`some none` is a cast to `null`), how a
    date prints, what is saved of an array or an object (`minimize` leaves empty objects out), and
    updates with operators, dots in their keys or objects for values, first cast and then applied
    to the document. -/
structure Package where
  objectId : Json → Option ObjectId
  objectId_str : ∀ s, objectId (.str s) = ObjectId.ofHex? s
  date : Json → Option (Option Int)
  number : Json → Option (Option Number)
  dateText : Int → String
  minimize : Json → Option Json
  nested : Fields → Int → Except Failure (Attrs Value → Except Failure (Attrs Value))

/-- Cast to a string: no array, and an object only by its `_id`. -/
def castString : Json → Option String
  | .arr _ => none
  | .obj fields => match fields.lookup "_id" with
    | some (.str s) => if s = "" then none else some s
    | _ => none
  | v => some v.toStr

/-- Cast to the type of a path; `null` stays `null`. -/
def Package.cast (M : Package) : SchemaType → Json → Option Value
  | _, .null => some .null
  | .objectId, v => (M.objectId v).map .objectId
  | .string, v => (castString v).map .string
  | .date, v => (M.date v).map fun d => d.elim .null .date
  | .number, v => (M.number v).map fun n => n.elim .null .number
  | .mixed, v => some (.ofJson v)

theorem Package.cast_mixed (M : Package) (v : Json) : M.cast .mixed v = some (.ofJson v) := by
  cases v <;> rfl

/-- `value.toString()`, or the message of the TypeError. -/
def Package.toString (M : Package) : Value → Except String String
  | .null => .error "Cannot read properties of null (reading 'toString')"
  | .objectId o => .ok o.toString
  | .string s => .ok s
  | .date ms => .ok (M.dateText ms)
  | .number n => .ok (Json.num n).toStr
  | .json v => if v.prints then .ok v.toStr else .error "value.toString is not a function"

/-- A value that JSON has as a text prints as that text. -/
theorem Package.toString_text (M : Package) {v : Value} {t : String} (h : v.toJson? = some (.str t)) :
    M.toString v = .ok t := by
  cases v with
  | objectId o => cases h; rfl
  | string s => cases h; rfl
  | json v =>
      cases h
      rfl
  | _ => cases h

/-! ## 2. Schemas -/

structure SchemaPath where
  key : String
  type : SchemaType
  required : Bool := false
  deriving Repr

/-- The paths of a model, with those Mongoose adds: `_id`, the timestamps and `__v`. -/
abbrev Schema := List SchemaPath

def Schema.ofProps (props : List SchemaPath) : Schema :=
  props ++ [⟨"_id", .objectId, false⟩, ⟨"createdAt", .date, false⟩, ⟨"updatedAt", .date, false⟩,
    ⟨"__v", .number, false⟩]

/-- The type of a path, if the key is one. -/
def Schema.type? (S : Schema) (key : String) : Option SchemaType :=
  (S.find? (·.key == key)).map (·.type)

/-- Strict mode: keys that are no paths are dropped, the others are cast. -/
def Schema.castFields (S : Schema) (M : Package) : Fields → Except Failure (List (String × Value))
  | [] => .ok []
  | (key, v) :: fields =>
    match S.type? key with
    | none => S.castFields M fields
    | some type =>
      match M.cast type v with
      | none => .error (.cast key)
      | some x => (S.castFields M fields).map ((key, x) :: ·)

/-- `{ ...fields, [key]: value }`: a key that is there keeps its place. -/
def assign (fields : Fields) (key : String) (value : Json) : Fields :=
  if fields.any (·.1 == key) then fields.map fun f => if f.1 = key then (key, value) else f
  else fields ++ [(key, value)]

/-- `new Model(fields)`: the paths of `fields` over a document that has an `_id` of its own. What
    fails to cast fails the validation of the document. -/
def Schema.construct (S : Schema) (M : Package) (oid : ObjectId) (fields : Fields) :
    Except Failure (Attrs Value) :=
  (S.castFields M fields).map fun sets => applySets (Attrs.of [("_id", .objectId oid)]) sets

/-- A required path has a value: no `null`, and no empty string where it is a path of strings. -/
def SchemaPath.holds (p : SchemaPath) (doc : Attrs Value) : Bool :=
  !p.required || match doc p.key with
    | none => false
    | some .null => false
    | some (.string s) => p.type != .string || s != ""
    | some _ => true

/-- The text of the validation of a required path. -/
def requiredText (path : String) : String := "Path `" ++ path ++ "` is required."

def Schema.validate (S : Schema) (doc : Attrs Value) : Except Failure Unit :=
  match S.find? (!·.holds doc) with
  | some p => .error (.validation p.key (requiredText p.key))
  | none => .ok ()

/-- What is saved of a value. -/
def Package.saved (M : Package) : Value → Option Value
  | .json (.arr xs) => (M.minimize (.arr xs)).map .json
  | .json (.obj fields) => (M.minimize (.obj fields)).map .json
  | v => some v

/-- `document.toObject()`, which is what is inserted. -/
def Package.toObject (M : Package) (doc : Attrs Value) : Attrs Value :=
  fun key => (doc key).bind M.saved

/-- What `save` sets on a new document: a creation date unless it has one, the same as its date of
    change, and the version. -/
def stamp (now : Int) (doc : Attrs Value) : Attrs Value :=
  let created := match doc "createdAt" with
    | none => .date now
    | some .null => .date now
    | some v => v
  applySets doc [("createdAt", created), ("updatedAt", created), ("__v", .number (.int 0))]

/-! ## 3. Updates -/

/-- An update as it is sent: the paths to set, or what the package made of operators and objects. -/
inductive Update where
  | set (sets : List (String × Value))
  | nested (fields : Fields) (now : Int)

/-- A field whose key is an operator or a path into a value, or whose value is an object. -/
def isNested : String × Json → Bool
  | (_, .obj _) => true
  | (key, _) => key.toList.head? == some '$' || key.toList.contains '.'

/-- The fields but for the timestamps: `createdAt` is immutable, `updatedAt` the time of the update. -/
def unstamped (fields : Fields) : Fields :=
  fields.filter fun f => f.1 != "createdAt" && f.1 != "updatedAt"

/-- What `findByIdAndUpdate` makes of a JSON object: the paths it names are cast and set. -/
def Schema.updateOf (S : Schema) (M : Package) (now : Int) (fields : Fields) :
    Except Failure Update :=
  if (unstamped fields).any isNested then (M.nested fields now).map fun _ => .nested fields now
  else (S.castFields M (unstamped fields)).map fun sets => .set (sets ++ [("updatedAt", .date now)])

/-- The document after an update. -/
def Package.apply (M : Package) (u : Update) (doc : Attrs Value) : Except Failure (Attrs Value) :=
  match u with
  | .set sets => .ok (applySets doc sets)
  | .nested fields now =>
    match M.nested fields now with
    | .ok f => f doc
    | .error e => .error e

/-! ## 4. The collection -/

/-- **A collection**: each document under its own `_id`. -/
abbrev Collection := Keyed ObjectId (Attrs Value) fun doc k => doc "_id" = some (.objectId k)

def duplicateKey : Failure := .driver ⟨"MongoServerError", "E11000 duplicate key error"⟩

def immutableId : Failure := .driver
  ⟨"MongoServerError", "Performing an update on the path '_id' would modify the immutable field '_id'"⟩

/-- The `_id` under which a document is inserted: its own, or one the driver adds to it. -/
def insertId (oid : ObjectId) (doc : Attrs Value) : ObjectId :=
  match doc "_id" with
  | some (.objectId k) => k
  | _ => oid

/-- The document with that `_id`. -/
def withId (oid : ObjectId) (doc : Attrs Value) : Attrs Value :=
  Function.update doc "_id" (some (.objectId (insertId oid doc)))

theorem withId_id (oid : ObjectId) (doc : Attrs Value) :
    withId oid doc "_id" = some (.objectId (insertId oid doc)) := Function.update_self ..

theorem withId_of_ne (oid : ObjectId) (doc : Attrs Value) {a : String} (h : a ≠ "_id") :
    withId oid doc a = doc a := Function.update_of_ne h ..

def Collection.insertOne (s : Collection) (oid : ObjectId) (doc : Attrs Value) :
    Except Failure Unit × Collection :=
  match s.get (insertId oid doc) with
  | some _ => (.error duplicateKey, s)
  | none => (.ok (), s.put (insertId oid doc) (withId oid doc) (withId_id oid doc))

/-- `findByIdAndUpdate(id, update, { new: true })` -/
def Collection.updateOne (s : Collection) (M : Package) (k : ObjectId) (u : Update) :
    Except Failure (Option (Attrs Value)) × Collection :=
  match s.get k with
  | none => (.ok none, s)
  | some doc =>
    match M.apply u doc with
    | .error e => (.error e, s)
    | .ok doc' =>
      if h : doc' "_id" = some (.objectId k) then (.ok (some doc'), s.put k doc' h)
      else (.error immutableId, s)

def Collection.deleteOne (s : Collection) (k : ObjectId) :
    Except Failure (Option (Attrs Value)) × Collection :=
  (.ok (s.get k), s.erase k)

section Lemmas

variable {S : Schema} {M : Package} {s : Collection} {k k' : ObjectId} {doc : Attrs Value}

/-- What is inserted on a path, from what the document holds there. -/
theorem toObject_apply {a : String} {v : Option Value} (h : doc a = v) :
    M.toObject doc a = v.bind M.saved := by
  rw [Package.toObject, h]

/-- Saving leaves the `_id` as it is. -/
theorem insertId_toObject (oid : ObjectId) (doc : Attrs Value) :
    insertId oid (M.toObject doc) = insertId oid doc := by
  rw [insertId, insertId]
  cases hid : doc "_id" with
  | none => rw [toObject_apply hid]; rfl
  | some v =>
      rw [toObject_apply hid, Option.bind_some]
      cases v with
      | json v =>
          cases v with
          | arr xs => rw [Package.saved]; cases M.minimize (.arr xs) <;> rfl
          | obj fields => rw [Package.saved]; cases M.minimize (.obj fields) <;> rfl
          | _ => rfl
      | _ => rfl

/-- The casts keep the keys that are paths, each with a cast of its value. -/
theorem castFields_spec {fields : Fields} {sets : List (String × Value)}
    (h : S.castFields M fields = .ok sets) : ∀ x ∈ sets, ∃ v type, (x.1, v) ∈ fields ∧
      S.type? x.1 = some type ∧ M.cast type v = some x.2 := by
  induction fields generalizing sets with
  | nil => cases h; exact fun _ hx => absurd hx List.not_mem_nil
  | cons f fields ih =>
      obtain ⟨key, v⟩ := f
      unfold Schema.castFields at h
      split at h
      · intro x hx
        obtain ⟨w, type, hw, hrest⟩ := ih h x hx
        exact ⟨w, type, List.mem_cons_of_mem _ hw, hrest⟩
      · rename_i type htype
        split at h
        · cases h
        · rename_i y hy
          cases hrec : S.castFields M fields with
          | error e => rw [hrec] at h; cases h
          | ok rest =>
              rw [hrec] at h
              cases h
              intro x hx
              rcases List.mem_cons.mp hx with rfl | hx
              · exact ⟨v, type, List.mem_cons_self, htype, hy⟩
              · obtain ⟨w, type, hw, hrest⟩ := ih hrec x hx
                exact ⟨w, type, List.mem_cons_of_mem _ hw, hrest⟩

theorem insertOne_cases (s : Collection) (oid : ObjectId) (doc : Attrs Value) :
    (s.insertOne oid doc).2 = s ∨ s.get (insertId oid doc) = none ∧ (s.insertOne oid doc).2 =
      s.put (insertId oid doc) (withId oid doc) (withId_id oid doc) := by
  unfold Collection.insertOne
  split
  · exact Or.inl rfl
  · rename_i h
    exact Or.inr ⟨h, rfl⟩

/-- An update changes nothing, or replaces the document by one of the same `_id`. -/
theorem updateOne_cases (s : Collection) (M : Package) (k : ObjectId) (u : Update) :
    (s.updateOne M k u).2 = s ∨ ∃ doc doc' h, s.get k = some doc ∧ M.apply u doc = .ok doc' ∧
      (s.updateOne M k u).2 = s.put k doc' h := by
  unfold Collection.updateOne
  split
  · exact Or.inl rfl
  · rename_i doc hdoc
    split
    · exact Or.inl rfl
    · rename_i doc' hdoc'
      split
      · rename_i h
        exact Or.inr ⟨doc, doc', h, hdoc, hdoc', rfl⟩
      · exact Or.inl rfl

end Lemmas

end Mongoose
