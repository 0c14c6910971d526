/-
  File:      BlogDemo/Lib/Kube/Delivery.lean
  Subject:   AN OBJECT AND ITS INFORMER, OVER TIME: the events of the object are handed on, again and
             again, while it is written.

  * `Told` -- every event is handed on in the end;
  * **`only_good`** -- when only good states are written and the object is in one, the cache and all
    that is pending is good from some time on;
  * **`caught_up`** -- when nothing is written any more, nothing is pending from some time on;
  * `told_of_rest` -- when again and again nothing is pending, every event has been handed on.
-/
import BlogDemo.Lib.Behaviour
import BlogDemo.Lib.Kube.Watch

namespace Kube

open Filter

variable {V : Type}

namespace Feed

variable {f : Nat → Feed V} {Good : Option (Version V) → Prop}

/-- Every event is handed on in the end. -/
def Told (f : Nat → Feed V) : Prop :=
  ∀ n, (f n).pending ≠ [] → ∃ m, n ≤ m ∧ (f m).pending ≠ [] ∧ f (m + 1) = (f m).tell

theorem tell_states_cons {g : Feed V} (h : g.pending ≠ []) : g.states = g.seen :: g.tell.states := by
  unfold tell states
  cases hp : g.pending with
  | nil => exact absurd hp h
  | cons o rest => rfl

theorem tell_pending_length {g : Feed V} (h : g.pending ≠ []) :
    g.tell.pending.length < g.pending.length := by
  unfold tell
  cases hp : g.pending with
  | nil => exact absurd hp h
  | cons o rest => exact Nat.lt_succ_self _

/-! ## 1. States that are left behind -/

open Classical in
/-- How many states there are up to the last one that is not good. -/
noncomputable def behind (Good : Option (Version V) → Prop) : List (Option (Version V)) → Nat
  | [] => 0
  | o :: l => if ∀ o' ∈ o :: l, Good o' then 0 else behind Good l + 1

theorem behind_eq_zero {l : List (Option (Version V))} : behind Good l = 0 ↔ ∀ o ∈ l, Good o := by
  cases l with
  | nil => simp [behind]
  | cons o l =>
      unfold behind
      split
      · rename_i h
        exact iff_of_true rfl h
      · rename_i h
        exact iff_of_false (Nat.succ_ne_zero _) h

theorem behind_cons (o : Option (Version V)) (l : List (Option (Version V))) :
    behind Good l ≤ behind Good (o :: l) ∧
      (behind Good (o :: l) ≠ 0 → behind Good l < behind Good (o :: l)) := by
  by_cases h : ∀ o' ∈ o :: l, Good o'
  · have hzero : behind Good (o :: l) = 0 := behind_eq_zero.mpr h
    have htail : behind Good l = 0 :=
      behind_eq_zero.mpr fun o' ho' => h o' (List.mem_cons_of_mem _ ho')
    omega
  · have hsucc : behind Good (o :: l) = behind Good l + 1 := by
      rw [behind, if_neg h]
    omega

theorem behind_push {o : Option (Version V)} (ho : Good o) (l : List (Option (Version V))) :
    behind Good (l ++ [o]) = behind Good l := by
  induction l with
  | nil => exact behind_eq_zero.mpr fun o' ho' => List.mem_singleton.mp ho' ▸ ho
  | cons o' l ih =>
      have hall : (∀ x ∈ o' :: (l ++ [o]), Good x) ↔ ∀ x ∈ o' :: l, Good x := by
        simp only [List.mem_cons, List.mem_append, List.not_mem_nil, or_false]
        constructor
        · exact fun h x hx => h x (hx.imp id Or.inl)
        · intro h x hx
          rcases hx with rfl | hx | rfl
          · exact h x (Or.inl rfl)
          · exact h x (Or.inr hx)
          · exact ho
      rw [List.cons_append]
      by_cases h : ∀ x ∈ o' :: l, Good x
      · rw [behind_eq_zero.mpr (hall.mpr h), behind_eq_zero.mpr h]
      · rw [behind, if_neg fun h' => h (hall.mp h'), behind, if_neg h, ih]

/-- **Good states only**, from some time on: when only such states are written. -/
theorem only_good
    (hstep : ∀ᶠ n in atTop, f (n + 1) = f n ∨ f (n + 1) = (f n).tell ∨
      ∃ o, Good o ∧ f (n + 1) = (f n).push o)
    (hcurrent : ∀ᶠ n in atTop, Good (f n).current) (htold : Told f) :
    ∀ᶠ n in atTop, ∀ o ∈ (f n).states, Good o := by
  have htell : ∀ g : Feed V, behind Good g.tell.states ≤ behind Good g.states := by
    intro g
    by_cases hp : g.pending = []
    · simp only [tell, hp, Nat.le_refl]
    · rw [tell_states_cons hp]
      exact (behind_cons _ _).1
  have hdrained := Behaviour.drains (f := fun n => behind Good (f n).states) ?_ ?_
  · exact hdrained.mono fun n hn => behind_eq_zero.mp hn
  · refine hstep.mono fun n hn => ?_
    rcases hn with heq | heq | ⟨o, ho, heq⟩
    · rw [heq]
    · rw [heq]
      exact htell (f n)
    · rw [heq, push_states, behind_push ho]
  · -- while a state is not good an event is pending, and the next one that is handed on counts
    obtain ⟨n₀, hn₀⟩ := eventually_atTop.mp (hstep.and hcurrent)
    refine eventually_atTop.mpr ⟨n₀, fun n hn hne => ?_⟩
    have hpending : ∀ m, n₀ ≤ m → behind Good (f m).states ≠ 0 → (f m).pending ≠ [] := by
      intro m hm hne hp
      refine hne (behind_eq_zero.mpr fun o ho => ?_)
      have hseen : (f m).current = (f m).seen := by rw [current, hp, List.getLastD_nil]
      rw [states, hp, List.mem_singleton] at ho
      rw [ho, ← hseen]
      exact (hn₀ m hm).2
    obtain ⟨m, hm, hpm, htold⟩ := htold n (hpending n hn hne)
    refine ⟨m, hm, fun hne' => ?_⟩
    have hcons := tell_states_cons hpm
    rw [htold]
    rw [hcons] at hne' ⊢
    exact (behind_cons _ _).2 hne'

/-! ## 2. When nothing is written -/

/-- **Nothing is pending**, from some time on: when nothing is written. -/
theorem caught_up (hstep : ∀ᶠ n in atTop, f (n + 1) = f n ∨ f (n + 1) = (f n).tell)
    (htold : Told f) : ∀ᶠ n in atTop, (f n).pending = [] := by
  have hdrained := Behaviour.drains (f := fun n => (f n).pending.length) ?_ ?_
  · exact hdrained.mono fun n hn => List.eq_nil_of_length_eq_zero hn
  · refine hstep.mono fun n hn => ?_
    rcases hn with heq | heq
    · rw [heq]
    · rw [heq]
      by_cases hp : (f n).pending = []
      · simp only [tell, hp, Nat.le_refl]
      · exact (tell_pending_length hp).le
  · refine Eventually.of_forall fun n hne => ?_
    obtain ⟨m, hm, hpm, htold⟩ := htold n fun hp => hne (congrArg List.length hp)
    exact ⟨m, hm, fun _ => htold ▸ tell_pending_length hpm⟩

/-- When again and again nothing is pending, every event has been handed on. -/
theorem told_of_rest (hstep : ∀ n, f (n + 1) = f n ∨ f (n + 1) = (f n).tell ∨
      ∃ o, f (n + 1) = (f n).push o)
    (hrest : ∀ n, ∃ m, n ≤ m ∧ (f m).pending = []) : Told f := by
  intro n hp
  obtain ⟨n', hn', hnone⟩ := hrest n
  obtain ⟨m, hm, hpm, hpm'⟩ := Behaviour.last_before (P := fun n => (f n).pending ≠ []) hn' hp
    (not_not.mpr hnone)
  refine ⟨m, hm, hpm, ?_⟩
  have hnil : (f (m + 1)).pending = [] := not_not.mp hpm'
  rcases hstep m with heq | heq | ⟨o, heq⟩
  · exact absurd (heq ▸ hnil) hpm
  · exact heq
  · have hpush : (f m).pending ++ [o] = [] := (congrArg Feed.pending heq).symm.trans hnil
    simp at hpush

end Feed

end Kube
