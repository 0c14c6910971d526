/-
  File:      BlogDemo/Lib/Attrs.lean
  Subject:   RECORDS WITH NAMED ATTRIBUTES, as a table row or a document is one: which attributes
             there are is up to the record, and one that is absent is `none`.

  * `Attrs.of` -- the record an object literal denotes; `applySets` -- attributes set one after the
    other; an attribute that is not among them stays (`applySets_of_notMem`).
-/
import Mathlib.Logic.Function.Basic

/-- **A record**: its attributes by name. -/
abbrev Attrs (V : Type) := String → Option V

namespace Attrs

variable {V : Type}

/-- The record an object literal denotes. -/
def of (fields : List (String × V)) : Attrs V := fun a => fields.lookup a

/-- The record that is not there: it has no attribute. -/
def absent : Attrs V := fun _ => none

@[simp] theorem absent_apply (a : String) : (absent : Attrs V) a = none := rfl

/-- Set the attributes one after the other. -/
def applySets (item : Attrs V) (sets : List (String × V)) : Attrs V :=
  sets.foldl (fun it s => Function.update it s.1 (some s.2)) item

@[simp] theorem applySets_nil (item : Attrs V) : applySets item [] = item := rfl

@[simp] theorem applySets_cons (item : Attrs V) (a : String) (v : V) (sets : List (String × V)) :
    applySets item ((a, v) :: sets) = applySets (Function.update item a (some v)) sets := rfl

/-- An attribute is as it was, or holds one of the values it was set to. -/
theorem applySets_or (item : Attrs V) (sets : List (String × V)) (a : String) :
    applySets item sets a = item a ∨ ∃ v, (a, v) ∈ sets ∧ applySets item sets a = some v := by
  induction sets generalizing item with
  | nil => exact Or.inl rfl
  | cons s sets ih =>
      obtain ⟨b, w⟩ := s
      rw [applySets_cons]
      rcases ih (Function.update item b (some w)) with h | ⟨v, hv, h⟩
      · by_cases hab : a = b
        · subst hab
          exact Or.inr ⟨w, List.mem_cons_self, by rw [h, Function.update_self]⟩
        · exact Or.inl (by rw [h, Function.update_of_ne hab])
      · exact Or.inr ⟨v, List.mem_cons_of_mem _ hv, h⟩

/-- Attributes that are not set stay. -/
theorem applySets_of_notMem {sets : List (String × V)} {a : String}
    (h : a ∉ sets.map Prod.fst) (item : Attrs V) : applySets item sets a = item a := by
  rcases applySets_or item sets a with hs | ⟨v, hv, _⟩
  · exact hs
  · exact absurd (List.mem_map.mpr ⟨(a, v), hv, rfl⟩) h

end Attrs
