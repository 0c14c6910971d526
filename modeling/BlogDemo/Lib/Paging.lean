/-
  File:      BlogDemo/Lib/Paging.lean
  Subject:   RESULTS THAT COME IN PAGES: a service answers a call with some of its entries and, when
             more remain, the key to go on from.

  * `Pages` -- all entries from a key on, page by page;
  * `Lists` -- each entry of a set exactly once; `Splits` -- the pages list the set together;
  * **`Splits.first_iff`** -- whoever asks once has the whole set if and only if all later pages are
    empty.
-/
import Mathlib.Data.List.Nodup
import Mathlib.Data.Set.Defs

namespace Paging

variable {Key α : Type}

/-- One page: its entries, and the key to go on from. -/
structure Page (Key α : Type) where
  entries : List α
  next : Option Key

/-- A service, by the page it answers from each key and from the start. -/
abbrev Service (Key α : Type) := Option Key → Page Key α

/-- **All entries from a key on**, page by page. -/
inductive Pages (svc : Service Key α) : Option Key → List α → Prop where
  | last {start : Option Key} (h : (svc start).next = none) : Pages svc start (svc start).entries
  | more {start : Option Key} {k : Key} {rest : List α} (h : (svc start).next = some k)
      (hrest : Pages svc (some k) rest) : Pages svc start ((svc start).entries ++ rest)

/-- **Each element of the set exactly once**, in any order. -/
structure Lists (xs : List α) (S : Set α) : Prop where
  once : xs.Nodup
  all : ∀ x, x ∈ xs ↔ x ∈ S

/-- The pages of the service list the set. -/
def Splits (svc : Service Key α) (S : Set α) : Prop := ∃ all, Pages svc none all ∧ Lists all S

/-- Every page after the first is empty. -/
def RestEmpty (svc : Service Key α) : Prop :=
  ∀ k rest, (svc none).next = some k → Pages svc (some k) rest → rest = []

theorem RestEmpty.of_last {svc : Service Key α} (h : (svc none).next = none) : RestEmpty svc := by
  intro k rest hk _
  rw [h] at hk
  cases hk

/-- The entries from a key on are determined. -/
theorem Pages.unique {svc : Service Key α} {start : Option Key} {xs ys : List α}
    (h : Pages svc start xs) (h' : Pages svc start ys) : xs = ys := by
  induction h generalizing ys with
  | last hnone =>
      cases h' with
      | last _ => rfl
      | more hk _ =>
          rw [hnone] at hk
          cases hk
  | more hk _ ih =>
      cases h' with
      | last hnone =>
          rw [hnone] at hk
          cases hk
      | more hk' hrest =>
          rw [hk, Option.some.injEq] at hk'
          subst hk'
          rw [ih hrest]

/-- A list with something after it is not the whole list. -/
theorem Lists.left_iff {xs ys : List α} {S : Set α} (h : Lists (xs ++ ys) S) :
    Lists xs S ↔ ys = [] := by
  constructor
  · intro hxs
    refine List.eq_nil_iff_forall_not_mem.mpr fun y hy => ?_
    have hmem : y ∈ xs := (hxs.all y).mpr ((h.all y).mp (List.mem_append_right xs hy))
    exact (List.nodup_append.mp h.once).2.2 y hmem y hy rfl
  · intro heq
    subst heq
    rwa [List.append_nil] at h

/-- **The first page is the whole set** if and only if all later pages are empty. -/
theorem Splits.first_iff {svc : Service Key α} {S : Set α} (h : Splits svc S) :
    Lists (svc none).entries S ↔ RestEmpty svc := by
  obtain ⟨all, hpages, hall⟩ := h
  cases hpages with
  | last hnone => exact iff_of_true hall (.of_last hnone)
  | @more _ k rest hk hrest =>
      rw [hall.left_iff]
      constructor
      · rintro rfl k' rest' hk' hrest'
        rw [hk, Option.some.injEq] at hk'
        subst hk'
        exact hrest'.unique hrest
      · intro hempty
        exact hempty k rest hk hrest

end Paging
