/-
  File:      BlogDemo/Lib/Keyed.lean
  Subject:   STORES WHOSE ENTRIES CARRY THEIR OWN KEY. A table row holds its primary key, an API
             object its name, a document its `_id`: `key v k` says that entry `v` belongs under
             `k`, and a store cannot be built in which an entry sits under another key.
-/
import Mathlib.Logic.Function.Basic

/-- **A store of entries by key**, each entry under the key it carries. -/
@[ext] structure Keyed (K V : Type) (key : V → K → Prop) where
  get : K → Option V
  keyed : ∀ k v, get k = some v → key v k

namespace Keyed

variable {K V : Type} {key : V → K → Prop}

/-- The store with no entry. -/
def empty : Keyed K V key := ⟨fun _ => none, fun _ _ h => by cases h⟩

@[simp] theorem empty_get (k : K) : (empty : Keyed K V key).get k = none := rfl

instance : Inhabited (Keyed K V key) := ⟨empty⟩

/-- Look an entry up, with the key it carries. -/
def find (s : Keyed K V key) (k : K) : Option { v : V // key v k } :=
  match h : s.get k with
  | some v => some ⟨v, s.keyed k v h⟩
  | none => none

theorem find_some {s : Keyed K V key} {k : K} {v : V} (h : s.get k = some v) :
    s.find k = some ⟨v, s.keyed k v h⟩ := by
  unfold find
  split
  · rename_i v' h'
    rw [h, Option.some.injEq] at h'
    simp only [h']
  · rename_i h'
    rw [h] at h'
    cases h'

theorem find_none {s : Keyed K V key} {k : K} (h : s.get k = none) : s.find k = none := by
  unfold find
  split
  · rename_i v' h'
    rw [h] at h'
    cases h'
  · rfl

theorem find_congr {s s' : Keyed K V key} {k : K} (h : s.get k = s'.get k) :
    s.find k = s'.find k := by
  cases hs : s.get k with
  | none => rw [find_none hs, find_none (h ▸ hs)]
  | some v => rw [find_some hs, find_some (h ▸ hs)]

variable [DecidableEq K]

/-- Put `v` under its key `k`, over what was there. -/
def put (s : Keyed K V key) (k : K) (v : V) (h : key v k) : Keyed K V key where
  get := Function.update s.get k (some v)
  keyed k' v' h' := by
    by_cases hk : k' = k
    · subst hk
      rw [Function.update_self, Option.some.injEq] at h'
      exact h' ▸ h
    · rw [Function.update_of_ne hk] at h'
      exact s.keyed k' v' h'

/-- Remove what is under `k`. -/
def erase (s : Keyed K V key) (k : K) : Keyed K V key where
  get := Function.update s.get k none
  keyed k' v' h' := by
    by_cases hk : k' = k
    · subst hk
      rw [Function.update_self] at h'
      cases h'
    · rw [Function.update_of_ne hk] at h'
      exact s.keyed k' v' h'

variable (s : Keyed K V key) {k k' : K} {v : V} {h : key v k}

@[simp] theorem put_get_self : (s.put k v h).get k = some v := Function.update_self ..

theorem put_get_of_ne (hk : k' ≠ k) : (s.put k v h).get k' = s.get k' := Function.update_of_ne hk ..

@[simp] theorem erase_get_self : (s.erase k).get k = none := Function.update_self ..

theorem erase_get_of_ne (hk : k' ≠ k) : (s.erase k).get k' = s.get k' := Function.update_of_ne hk ..

theorem put_get (k' : K) : (s.put k v h).get k' = if k' = k then some v else s.get k' :=
  Function.update_apply ..

/-- What is found after a put: the new entry, or another one that was there. -/
theorem of_put {v' : V} (hv : (s.put k v h).get k' = some v') :
    k' = k ∧ v' = v ∨ k' ≠ k ∧ s.get k' = some v' := by
  by_cases hk : k' = k
  · subst hk
    rw [put_get_self, Option.some.injEq] at hv
    exact Or.inl ⟨rfl, hv.symm⟩
  · exact Or.inr ⟨hk, by rwa [put_get_of_ne _ hk] at hv⟩

/-- What is found after an erasure was there. -/
theorem of_erase {v' : V} (hv : (s.erase k).get k' = some v') : k' ≠ k ∧ s.get k' = some v' := by
  by_cases hk : k' = k
  · subst hk
    rw [erase_get_self] at hv
    cases hv
  · exact ⟨hk, by rwa [erase_get_of_ne _ hk] at hv⟩

/-- Putting back what is there changes nothing. -/
theorem put_same (hv : s.get k = some v) : s.put k v h = s := by
  ext1
  funext k'
  rw [put_get]
  by_cases hk : k' = k
  · rw [if_pos hk, hk, hv]
  · rw [if_neg hk]

end Keyed
