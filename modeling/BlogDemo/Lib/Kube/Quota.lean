/-
  File:      BlogDemo/Lib/Kube/Quota.lean
  Subject:   LIMIT RANGES AND RESOURCE QUOTAS: what a container is given that does not say what it needs, and
             how much the pods of a namespace may take together.

  Quantities are texts; what they are worth is a parameter, in thousandths.

  * `fill`, `LimitRange.apply` -- the defaults; `lookup_fill` -- what is stated stays;
  * `ResourceQuota.admits`, `ResourceQuota.step` -- a pod is created within the quota, or not at all;
  * **`run_within`** -- no run exceeds the quota, whatever is let in and taken away;
  * `run_admitted` -- every pod of a run came through admission;
  * **`count_le`**, **`count_pods_le`** -- how many containers, and how many pods with a container of
    whatever kind, there may be that take so much.
-/
import BlogDemo.Lib.Kube.Pod
import BlogDemo.Lib.Runs
import Mathlib.Algebra.Order.BigOperators.Group.List
import Mathlib.Algebra.Order.Ring.Nat

namespace CoreV1

open Runs

/-! ## 1. Defaults -/

/-- The entries of `m`, and the defaults for the names it does not have. -/
def fill (defaults m : List (String × String)) : List (String × String) :=
  m ++ defaults.filter fun e => (m.lookup e.1).isNone

/-- What is limited and not requested is requested as much. -/
def ResourceRequirements.setDefaults (r : ResourceRequirements) : ResourceRequirements :=
  { r with requests := fill r.limits r.requests }

/-- The defaults for containers. -/
structure LimitRange where
  defaultRequest : List (String × String)
  default : List (String × String)

def LimitRange.apply (l : LimitRange) (r : ResourceRequirements) : ResourceRequirements where
  requests := fill l.defaultRequest r.requests
  limits := fill l.default r.limits

def Container.mapResources (f : ResourceRequirements → ResourceRequirements) (c : Container) :
    Container := { c with resources := f c.resources }

/-- Ephemeral containers have no resources. -/
def Pod.mapResources (f : ResourceRequirements → ResourceRequirements) (p : Pod) : Pod :=
  { p with
    containers := p.containers.map (·.mapResources f)
    initContainers := p.initContainers.map (·.mapResources f) }

theorem lookup_filter_of {d : List (String × String)} {q : String → Bool} {key : String}
    (h : q key = true) : (d.filter fun e => q e.1).lookup key = d.lookup key := by
  induction d with
  | nil => rfl
  | cons e d ih =>
      obtain ⟨k, v⟩ := e
      by_cases hk : key = k
      · subst hk
        simp [h]
      · have hne : (key == k) = false := beq_eq_false_iff_ne.mpr hk
        cases hq : q k with
        | true => simp only [List.filter_cons, hq, if_true, List.lookup_cons, hne, ih]
        | false =>
            simp only [List.filter_cons, hq, Bool.false_eq_true, if_false, List.lookup_cons, hne, ih]

/-- **What is stated stays**, and the default is for the rest. -/
theorem lookup_fill (d m : List (String × String)) (key : String) :
    (fill d m).lookup key = (m.lookup key).or (d.lookup key) := by
  rw [fill, List.lookup_append]
  cases h : m.lookup key with
  | some v => rfl
  | none =>
      rw [Option.none_or, Option.none_or]
      exact @lookup_filter_of d (fun k => (m.lookup k).isNone) key (by rw [h]; rfl)

/-! ## 2. Quotas -/

/-- `pods`, `requests.<resource>` and `limits.<resource>`. -/
inductive QuotaResource where
  | pods
  | requests (resource : String)
  | limits (resource : String)
  deriving DecidableEq

structure ResourceQuota where
  hard : List (QuotaResource × String)

/-- The container states what the quota counts. -/
def QuotaResource.statedBy : QuotaResource → Container → Bool
  | .pods, _ => true
  | .requests resource, c => (c.resources.requests.lookup resource).isSome
  | .limits resource, c => (c.resources.limits.lookup resource).isSome

section Value

-- what a quantity is worth, in thousandths
variable (value : String → ℕ)

def amount (m : List (String × String)) (resource : String) : ℕ :=
  ((m.lookup resource).map value).getD 0

/-- The containers of a pod run together, its init containers before them, one by one. -/
def effective (f : Container → ℕ) (p : Pod) : ℕ :=
  Nat.max (p.containers.map f).sum ((p.initContainers.map f).foldr Nat.max 0)

def QuotaResource.ofPod : QuotaResource → Pod → ℕ
  | .pods, _ => 1000
  | .requests resource, p => effective (fun c => amount value c.resources.requests resource) p
  | .limits resource, p => effective (fun c => amount value c.resources.limits resource) p

def QuotaResource.usage (r : QuotaResource) (ps : List Pod) : ℕ := (ps.map (r.ofPod value)).sum

/-- **The quota lets the pod in**, beside those that are there. -/
def ResourceQuota.admits (q : ResourceQuota) (ps : List Pod) (p : Pod) : Bool :=
  ((p.containers ++ p.initContainers).all fun c => q.hard.all fun e => e.1.statedBy c) &&
    q.hard.all fun e => e.1.usage value ps + e.1.ofPod value p ≤ value e.2

/-- What happens to the pods of a namespace. -/
inductive PodAction where
  | create (p : Pod)
  /-- A pod is deleted, or comes to its end. -/
  | remove (i : ℕ)

/-- Admission gives a pod as it is stored, or refuses it. -/
def ResourceQuota.step (q : ResourceQuota) (admission : Pod → Option Pod) (ps : List Pod) :
    PodAction → Option (List Pod)
  | .create p =>
    match admission p with
    | some p => if q.admits value ps p then some (p :: ps) else none
    | none => none
  | .remove i => if i < ps.length then some (ps.eraseIdx i) else none

/-- The pods are within the quota. -/
def ResourceQuota.Within (q : ResourceQuota) (ps : List Pod) : Prop :=
  ∀ e ∈ q.hard, e.1.usage value ps ≤ value e.2

/-! ## 3. Runs -/

variable {value} {q : ResourceQuota} {admission : Pod → Option Pod} {ps ps' : List Pod}

/-- What a step can do. -/
theorem step_cases {a : PodAction} (h : q.step value admission ps a = some ps') :
    (∃ p stored, a = .create p ∧ admission p = some stored ∧ q.admits value ps stored = true ∧
      ps' = stored :: ps) ∨ (∃ i, a = .remove i ∧ ps' = ps.eraseIdx i) := by
  cases a with
  | create p =>
      rw [ResourceQuota.step] at h
      split at h
      · rename_i stored hstored
        split at h
        · rename_i hadmits
          exact Or.inl ⟨p, stored, rfl, hstored, hadmits, (Option.some.inj h).symm⟩
        · cases h
      · cases h
  | remove i =>
      rw [ResourceQuota.step] at h
      split at h
      · exact Or.inr ⟨i, rfl, (Option.some.inj h).symm⟩
      · cases h

theorem usage_eraseIdx (r : QuotaResource) (i : ℕ) :
    r.usage value (ps.eraseIdx i) ≤ r.usage value ps :=
  List.Sublist.sum_le_sum ((List.eraseIdx_sublist ps i).map (r.ofPod value)) fun _ _ => Nat.zero_le _

/-- **No run exceeds the quota.** -/
theorem run_within (h₀ : q.Within value ps) (h : Run (q.step value admission) free ps ps') :
    q.Within value ps' := by
  refine h.invariant h₀ ?_
  intro s a s' _ hwithin _ hstep
  rcases step_cases hstep with ⟨p, stored, _, _, hadmits, rfl⟩ | ⟨i, _, rfl⟩
  · intro e he
    have hroom := List.all_eq_true.mp (Bool.and_eq_true_iff.mp hadmits).2 e he
    have hsum : e.1.usage value (stored :: s) = e.1.ofPod value stored + e.1.usage value s :=
      List.sum_cons
    have hle : e.1.usage value s + e.1.ofPod value stored ≤ value e.2 := by simpa using hroom
    omega
  · exact fun e he => Nat.le_trans (usage_eraseIdx e.1 i) (hwithin e he)

/-- Every pod of a run came through admission. -/
theorem run_admitted (h : Run (q.step value admission) free [] ps) :
    ∀ p ∈ ps, ∃ submitted, admission submitted = some p := by
  refine h.invariant (I := fun ps => ∀ p ∈ ps, ∃ submitted, admission submitted = some p) nofun ?_
  intro s a s' _ hs _ hstep
  rcases step_cases hstep with ⟨p, stored, _, hstored, _, rfl⟩ | ⟨i, _, rfl⟩
  · intro p' hp'
    rcases List.mem_cons.mp hp' with rfl | hp'
    · exact ⟨p, hstored⟩
    · exact hs p' hp'
  · exact fun p hp => hs p (List.mem_of_mem_eraseIdx hp)

/-! ## 4. How much fits -/

theorem countP_mul_le {α : Type} {f : α → ℕ} {P : α → Bool} {a : ℕ} (cs : List α)
    (h : ∀ c ∈ cs, P c = true → a ≤ f c) : cs.countP P * a ≤ (cs.map f).sum := by
  induction cs with
  | nil => simp
  | cons c cs ih =>
      have hcs := ih fun c' hc' => h c' (List.mem_cons_of_mem c hc')
      rw [List.map_cons, List.sum_cons, List.countP_cons]
      by_cases hc : P c = true
      · have hle := h c List.mem_cons_self hc
        rw [if_pos hc, Nat.add_mul, Nat.one_mul]
        omega
      · rw [if_neg hc, Nat.add_zero]
        omega

/-- A pod takes as much as any of its containers. -/
theorem le_effective {f : Container → ℕ} {p : Pod} {c : Container}
    (hc : c ∈ p.containers ++ p.initContainers) : f c ≤ effective f p := by
  rcases List.mem_append.mp hc with hc | hc
  · exact (List.le_sum_of_mem (List.mem_map_of_mem hc)).trans (Nat.le_max_left _ _)
  · have hmax : ∀ xs : List ℕ, ∀ x ∈ xs, x ≤ xs.foldr Nat.max 0 := by
      intro xs
      induction xs with
      | nil => exact fun x hx => absurd hx List.not_mem_nil
      | cons y ys ih =>
          intro x hx
          rcases List.mem_cons.mp hx with rfl | hx
          · exact Nat.le_max_left _ _
          · exact (ih x hx).trans (Nat.le_max_right _ _)
    exact (hmax _ _ (List.mem_map_of_mem hc)).trans (Nat.le_max_right _ _)

/-- **Pods with a container that takes so much** are so many at most. -/
theorem count_pods_le {resource : String} {P : Container → Bool} {a : ℕ}
    (h : ∀ p ∈ ps, ∀ c ∈ p.containers ++ p.initContainers, P c = true →
      a ≤ amount value c.resources.limits resource) :
    (ps.countP fun p => (p.containers ++ p.initContainers).any P) * a ≤
      (QuotaResource.limits resource).usage value ps := by
  refine countP_mul_le ps fun p hp hany => ?_
  obtain ⟨c, hc, hP⟩ := List.any_eq_true.mp hany
  exact (h p hp c hc hP).trans
    (le_effective (f := fun c => amount value c.resources.limits resource) hc)

/-- **Containers that take so much** are so many at most. -/
theorem count_le {resource : String} {P : Container → Bool} {a : ℕ}
    (h : ∀ p ∈ ps, ∀ c ∈ p.containers, P c = true → a ≤ amount value c.resources.limits resource) :
    (ps.flatMap (·.containers)).countP P * a ≤ (QuotaResource.limits resource).usage value ps := by
  induction ps with
  | nil => simp
  | cons p ps ih =>
      have hps := ih fun p' hp' => h p' (List.mem_cons_of_mem p hp')
      have hp := countP_mul_le (f := fun c => amount value c.resources.limits resource)
        p.containers (h p List.mem_cons_self)
      have hmax : (p.containers.map fun c => amount value c.resources.limits resource).sum ≤
          (QuotaResource.limits resource).ofPod value p := Nat.le_max_left _ _
      have hsum : (QuotaResource.limits resource).usage value (p :: ps) =
          (QuotaResource.limits resource).ofPod value p +
            (QuotaResource.limits resource).usage value ps := List.sum_cons
      rw [List.flatMap_cons, List.countP_append, Nat.add_mul]
      omega

end Value

end CoreV1
