/-
  File:      BlogDemo/Lib/Dynamo/Table.lean
  Subject:   A DYNAMODB TABLE AND ITS SINGLE-ITEM OPERATIONS. Each operation names one key, checks
             its condition on the item under that key and takes effect on that item, all at once.

  * `Table pk V` -- the items by the value of their partition key `pk`; no item can sit under a
    value other than its own (`Keyed`);
  * `putItem`, `updateItem`, `deleteItem`, `getItem` -- the operations; UpdateItem on a key that is
    not in the table creates the item, with the key and what the expression sets;
  * `putItem_spec`, `updateItem_spec`, `deleteItem_spec` -- what each does when it is not refused.
-/
import BlogDemo.Lib.Js
import BlogDemo.Lib.Keyed
import BlogDemo.Lib.Dynamo.Expression

namespace Dynamo

open Js (Error)
open Attrs

variable {V : Type}

/-- **A table** with partition key `pk`. -/
abbrev Table (pk : String) (V : Type) := Keyed V (Attrs V) fun item k => item pk = some k

/-- The request is not well formed. -/
def validation (message : String) : Error := ⟨"ValidationException", message⟩

/-- The condition of a request did not hold. -/
def conditionalCheckFailed : Error :=
  ⟨"ConditionalCheckFailedException", "The conditional request failed"⟩

variable {pk : String}

/-- The item under a key; it has no attribute when there is none. -/
def Table.item (t : Table pk V) (k : V) : Attrs V := (t.get k).getD Attrs.absent

/-- The attributes an update starts from: those of the item, or the key alone. -/
def Table.base (t : Table pk V) (k : V) : Attrs V := (t.get k).getD (Attrs.of [(pk, k)])

theorem Table.base_key (t : Table pk V) (k : V) : t.base k pk = some k := by
  unfold Table.base
  cases h : t.get k with
  | none => simp [Attrs.of]
  | some item => exact t.keyed k item h

/-- Apart from the key, an update starts from the attributes of the item. -/
theorem Table.base_apply (t : Table pk V) (k : V) {a : String} (h : a ≠ pk) :
    t.base k a = t.item k a := by
  unfold Table.base Table.item
  cases t.get k with
  | none => simp [Attrs.of, List.lookup_cons, beq_eq_false_iff_ne.mpr h]
  | some item => rfl

/-- Setting other attributes keeps the key. -/
theorem Table.base_sets (t : Table pk V) (k : V) {sets : List (String × V)}
    (h : pk ∉ sets.map Prod.fst) : applySets (t.base k) sets pk = some k := by
  rw [applySets_of_notMem h, t.base_key]

section Operations

variable [DecidableEq V]

/-- Check a condition expression on the item under the key; a request without one has none. -/
def checkCondition (env : Env V) (item : Attrs V) : Option String → Except Error Unit
  | none => .ok ()
  | some text =>
    match (parseCondition text).bind (·.eval env item) with
    | some true => .ok ()
    | some false => .error conditionalCheckFailed
    | none => .error (validation "Invalid ConditionExpression")

/-- What an update did: the table after it, the attributes it set and the whole item. -/
structure Updated (pk : String) (V : Type) where
  table : Table pk V
  changed : Attrs V
  item : Attrs V

/-- GetItem. -/
def Table.getItem (t : Table pk V) (key : String × V) : Except Error (Option (Attrs V)) :=
  if key.1 = pk then .ok (t.get key.2)
  else .error (validation "The provided key element does not match the schema")

/-- PutItem: the item replaces what is under its key. -/
def Table.putItem (t : Table pk V) (item : Attrs V) (condition : Option String) (env : Env V) :
    Except Error (Table pk V) :=
  match h : item pk with
  | none => .error (validation "One of the required keys was not given a value")
  | some k =>
    if env.unused condition.toList then .error (validation "Value provided in expressions unused")
    else
      match checkCondition env (t.item k) condition with
      | .error e => .error e
      | .ok () => .ok (t.put k item h)

/-- UpdateItem: set what the expression says on the item under the key, or create it. -/
def Table.updateItem (plus : V → V → Option V) (t : Table pk V) (key : String × V)
    (update : String) (condition : Option String) (env : Env V) : Except Error (Updated pk V) :=
  if key.1 ≠ pk then .error (validation "The provided key element does not match the schema")
  else if env.unused (update :: condition.toList) then
    .error (validation "Value provided in expressions unused")
  else
    match checkCondition env (t.item key.2) condition with
    | .error e => .error e
    | .ok () =>
      match evalUpdate plus env (t.base key.2) update with
      | none => .error (validation "Invalid UpdateExpression")
      | some sets =>
        if h : pk ∈ sets.map Prod.fst then
          .error (validation "Cannot update attribute. This attribute is part of the key")
        else
          .ok ⟨t.put key.2 (applySets (t.base key.2) sets) (t.base_sets key.2 h), Attrs.of sets,
            applySets (t.base key.2) sets⟩

/-- DeleteItem: remove the item under the key; removing what is not there changes nothing. -/
def Table.deleteItem (t : Table pk V) (key : String × V) (condition : Option String)
    (env : Env V) : Except Error (Table pk V) :=
  if key.1 ≠ pk then .error (validation "The provided key element does not match the schema")
  else if env.unused condition.toList then .error (validation "Value provided in expressions unused")
  else
    match checkCondition env (t.item key.2) condition with
    | .error e => .error e
    | .ok () => .ok (t.erase key.2)

/-! ## 1. When an operation is not refused -/

/-- A condition that held was true of the item. -/
def Holds (env : Env V) (item : Attrs V) (condition : Option String) : Prop :=
  checkCondition env item condition = .ok ()

theorem holds_none (env : Env V) (item : Attrs V) : Holds env item none := rfl

/-- A condition expression holds when it reads as a condition that is true of the item. -/
theorem holds_some {env : Env V} {item : Attrs V} {text : String} {c : Condition}
    (hc : parseCondition text = some c) : Holds env item (some text) ↔ c.eval env item = some true := by
  simp only [Holds, checkCondition, hc, Option.bind_some]
  cases c.eval env item with
  | none => simp
  | some b => cases b <;> simp

/-- A put without a condition is refused only for want of a key. -/
theorem Table.putItem_ok (t : Table pk V) {item : Attrs V} {k : V} (h : item pk = some k) :
    t.putItem item none {} = .ok (t.put k item h) := by
  unfold Table.putItem
  split
  · rename_i h'
    rw [h] at h'
    cases h'
  · rename_i k' h'
    rw [h, Option.some.injEq] at h'
    subst h'
    rfl

/-- A delete without a condition is not refused. -/
theorem Table.deleteItem_ok (t : Table pk V) (k : V) : t.deleteItem (pk, k) none {} = .ok (t.erase k) := by
  unfold Table.deleteItem
  rw [if_neg (not_not_intro rfl)]
  rfl

/-- An update whose placeholders all stand for something, are all used and name no key attribute. -/
theorem Table.updateItem_ok {plus : V → V → Option V} (t : Table pk V) (k : V) {update : String}
    {condition : Option String} {env : Env V} {sets : List (String × V)}
    (hu : env.unused (update :: condition.toList) = false) (hc : Holds env (t.item k) condition)
    (he : evalUpdate plus env (t.base k) update = some sets) (hm : pk ∉ sets.map Prod.fst) :
    t.updateItem plus (pk, k) update condition env =
      .ok ⟨t.put k (applySets (t.base k) sets) (t.base_sets k hm), Attrs.of sets,
        applySets (t.base k) sets⟩ := by
  unfold Table.updateItem
  rw [if_neg (not_not_intro rfl), hu, if_neg Bool.false_ne_true]
  have hc' : checkCondition env (t.item k) condition = .ok () := hc
  simp only [hc', he]
  rw [dif_neg hm]

/-! ## 2. What an operation that is not refused has done -/

theorem putItem_spec {t t' : Table pk V} {item : Attrs V} {condition : Option String} {env : Env V}
    (h : t.putItem item condition env = .ok t') :
    ∃ k, item pk = some k ∧ Holds env (t.item k) condition ∧ t'.get k = some item ∧
      ∀ k', k' ≠ k → t'.get k' = t.get k' := by
  unfold Table.putItem at h
  split at h
  · cases h
  · rename_i k hk
    split at h
    · cases h
    · split at h
      · cases h
      · rename_i hc
        cases h
        exact ⟨k, hk, hc, t.put_get_self, fun k' hk' => t.put_get_of_ne hk'⟩

theorem updateItem_spec {plus : V → V → Option V} {t : Table pk V} {key : String × V}
    {update : String} {condition : Option String} {env : Env V} {u : Updated pk V}
    (h : t.updateItem plus key update condition env = .ok u) :
    key.1 = pk ∧ Holds env (t.item key.2) condition ∧
      (∃ sets, evalUpdate plus env (t.base key.2) update = some sets ∧
        pk ∉ sets.map Prod.fst ∧ u.changed = Attrs.of sets ∧
        u.item = applySets (t.base key.2) sets) ∧
      u.table.get key.2 = some u.item ∧ ∀ k', k' ≠ key.2 → u.table.get k' = t.get k' := by
  unfold Table.updateItem at h
  split at h
  · cases h
  · rename_i hpk
    split at h
    · cases h
    · split at h
      · cases h
      · rename_i hc
        split at h
        · cases h
        · rename_i sets hsets
          split at h
          · cases h
          · rename_i hmem
            cases h
            have hkey := t.base_sets key.2 hmem
            exact ⟨Classical.not_not.mp hpk, hc, ⟨sets, hsets, hmem, rfl, rfl⟩,
              t.put_get_self (h := hkey), fun k' hk' => t.put_get_of_ne (h := hkey) hk'⟩

theorem deleteItem_spec {t t' : Table pk V} {key : String × V} {condition : Option String}
    {env : Env V} (h : t.deleteItem key condition env = .ok t') :
    key.1 = pk ∧ Holds env (t.item key.2) condition ∧ t'.get key.2 = none ∧
      ∀ k', k' ≠ key.2 → t'.get k' = t.get k' := by
  unfold Table.deleteItem at h
  split at h
  · cases h
  · rename_i hpk
    split at h
    · cases h
    · split at h
      · cases h
      · rename_i hc
        cases h
        exact ⟨Classical.not_not.mp hpk, hc, t.erase_get_self, fun k' hk' => t.erase_get_of_ne hk'⟩

end Operations

end Dynamo
