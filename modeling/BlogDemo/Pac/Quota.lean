/-
  File:      BlogDemo/Pac/Quota.lean
  Subject:   THE POLICIES THAT CHANGE AND THAT GENERATE (k8s-pac-demo/kyverno: add-managed-label.yaml and
             generate-quota-and-limitrange.yaml), and what they do to those that validate.

  The limit range fills in what a container does not state before the policies see the pod; the quota
  counts after them.

  * **`admits_stored_iff`** -- as soon as the limit range is there, the policy that asks for requests
    and limits refuses no pod, and the others decide as they would without;
  * **`demo_within`** -- no run exceeds the quota, and of the containers that leave their memory open
    there are never more than sixteen, nor of the pods with one, be it an init container, whatever
    room the quota has for pods.
-/
import BlogDemo.Lib.Kube.Quota
import BlogDemo.Pac.Coverage
import Mathlib.Data.Set.List

namespace Pac

open Js Admission Rego CoreV1 Runs

/-! ## 1. What the policies make -/

/-- `gen-limitrange` -/
def demoLimitrange : LimitRange where
  defaultRequest := [("cpu", "50m"), ("memory", "64Mi")]
  default := [("cpu", "200m"), ("memory", "256Mi")]

/-- `gen-resourcequota` -/
def demoQuota : ResourceQuota where
  hard := [(.pods, "20"), (.requests "cpu", "2"), (.requests "memory", "2Gi"), (.limits "cpu", "4"),
    (.limits "memory", "4Gi")]

/-- `add-managed-label-to-pods`: the label is set, whatever it was. -/
def addManagedLabel (p : Pod) : Pod :=
  { p with
    labels := ("policy.kyverno.io/managed", "true") ::
      p.labels.filter fun e => e.1 != "policy.kyverno.io/managed" }

/-- The resources of a container, as the API server and the limit range leave them. -/
def defaulted (r : ResourceRequirements) : ResourceRequirements := demoLimitrange.apply r.setDefaults

/-- The pod as the policies that validate see it, and as it is stored. -/
def stored (p : Pod) : Pod := addManagedLabel (p.mapResources defaulted)

/-- **A pod is stored** as it was changed, unless a policy denies it. -/
def admission (p : Pod) : Option Pod :=
  if constraints.all (fun c => (c.violations (review (stored p))).isEmpty) &&
      clusterPolicies.all fun c => (c.denials (review (stored p))).isEmpty then some (stored p)
  else none

theorem admission_iff {p p' : Pod} :
    admission p = some p' ↔ Admits (review (stored p)) ∧ stored p = p' := by
  have hadmits : (constraints.all (fun c => (c.violations (review (stored p))).isEmpty) &&
      clusterPolicies.all fun c => (c.denials (review (stored p))).isEmpty) = true ↔
        Admits (review (stored p)) := by
    simp only [Bool.and_eq_true, List.all_eq_true, List.isEmpty_iff]
    exact ⟨fun h => ⟨h.1, h.2⟩, fun h => ⟨h.gatekeeper, h.kyverno⟩⟩
  simp only [admission, hadmits, Option.ite_none_right_eq_some, Option.some.injEq]

/-! ## 2. What the limit range leaves to the policies -/

/-- Quantities are no empty texts. -/
def WellFormed (p : Pod) : Prop :=
  ∀ c ∈ p.containers, ∀ e ∈ c.resources.requests ++ c.resources.limits, e.2 ≠ ""

theorem mem_of_lookup {m : List (String × String)} {key q : String} (h : m.lookup key = some q) :
    (key, q) ∈ m := by
  induction m with
  | nil => cases h
  | cons e m ih =>
      obtain ⟨k, v⟩ := e
      rw [List.lookup_cons] at h
      split at h
      · rename_i hk
        cases h
        rw [eq_of_beq hk]
        exact List.mem_cons_self
      · exact List.mem_cons_of_mem _ (ih h)

theorem states_of {m d : List (String × String)} {resource q : String}
    (hm : ∀ e ∈ m, e.2 ≠ "") (hd : d.lookup resource = some q) (hq : q ≠ "") :
    States (fill d m) resource := by
  rw [States, lookup_fill, hd]
  cases h : m.lookup resource with
  | none => exact ⟨q, rfl, hq⟩
  | some q' => exact ⟨q', rfl, hm (resource, q') (mem_of_lookup h)⟩

/-- **After the limit range** a container states its requests and its limits. -/
theorem defaulted_states {c : Container}
    (h : ∀ e ∈ c.resources.requests ++ c.resources.limits, e.2 ≠ "") :
    StatesResources (c.mapResources defaulted) := by
  have hlimits : ∀ e ∈ c.resources.limits, e.2 ≠ "" :=
    fun e he => h e (List.mem_append_right _ he)
  have hrequests : ∀ e ∈ fill c.resources.limits c.resources.requests, e.2 ≠ "" := by
    intro e he
    rcases List.mem_append.mp he with he | he
    · exact h e (List.mem_append_left _ he)
    · exact hlimits e (List.mem_filter.mp he).1
  exact ⟨⟨states_of hrequests rfl (by decide), states_of hrequests rfl (by decide)⟩,
    states_of hlimits rfl (by decide), states_of hlimits rfl (by decide)⟩

theorem lookup_managed {labels : List (String × String)} {key : String}
    (h : key ≠ "policy.kyverno.io/managed") :
    (("policy.kyverno.io/managed", "true") ::
      labels.filter fun e => e.1 != "policy.kyverno.io/managed").lookup key = labels.lookup key := by
  have hkey : (key == "policy.kyverno.io/managed") = false := beq_eq_false_iff_ne.mpr h
  rw [List.lookup_cons, hkey]
  exact @lookup_filter_of labels (· != "policy.kyverno.io/managed") key (bne_iff_ne.mpr h)

theorem mem_mapResources {cs : List Container} {f : ResourceRequirements → ResourceRequirements}
    {P : Container → Prop} (hP : ∀ c, P (c.mapResources f) ↔ P c) :
    (∀ c ∈ cs.map (·.mapResources f), P c) ↔ ∀ c ∈ cs, P c := by
  simp only [List.forall_mem_map, hP]

theorem constraints_iff {p : Pod} (hns : p.ns = "demo-pac") :
    (∀ c ∈ constraints, c.violations (review p) = []) ↔
      (∀ l ∈ ["app", "owner"], ∃ v, p.labels.lookup l = some v) ∧
      (∀ c ∈ p.containers ++ p.initContainers, Pinned c) ∧
      (∀ c ∈ p.containers ++ p.initContainers, ¬ Privileged c) ∧
      ∀ v ∈ p.volumes, v.hostPath = none := by
  simp only [constraints, List.forall_mem_cons, List.not_mem_nil, false_imp_iff, implies_true,
    and_true, demoRequiredLabels, demoDisallowLatest, demoDisallowPrivileged, demoDisallowHostpath,
    covers_pod hns, k8sRequiredLabels_nil, k8sDisallowLatest_nil, k8sDisallowPrivileged_nil,
    k8sDisallowHostPath_nil]

/-- What the policies ask of a pod, its resources apart, they ask of the pod as it was sent. -/
theorem meets_stored_iff {p : Pod} (hp : WellFormed p) : Meets (stored p) ↔
    ((∀ l ∈ ["app", "owner"], ∃ v, p.labels.lookup l = some v) ∧
      (∀ c ∈ p.containers ++ p.initContainers, Pinned c) ∧
      (∀ c ∈ p.containers ++ p.initContainers, ¬ Privileged c) ∧
      ∀ v ∈ p.volumes, v.hostPath = none) ∧
    RuntimeDefault p ∧ ∀ c ∈ p.containers, ∃ s, c.securityContext = some s ∧ Matches s := by
  have hlabels : (∀ l ∈ ["app", "owner"], ∃ v, (stored p).labels.lookup l = some v) ↔
      ∀ l ∈ ["app", "owner"], ∃ v, p.labels.lookup l = some v := by
    refine forall₂_congr fun l hl => ?_
    have hne : l ≠ "policy.kyverno.io/managed" := by
      rintro rfl
      revert hl
      decide
    rw [show (stored p).labels.lookup l = p.labels.lookup l from lookup_managed hne]
  have hall : (stored p).containers ++ (stored p).initContainers =
      (p.containers ++ p.initContainers).map (·.mapResources defaulted) := List.map_append.symm
  have hpinned : (∀ c ∈ (stored p).containers ++ (stored p).initContainers, Pinned c) ↔
      ∀ c ∈ p.containers ++ p.initContainers, Pinned c := by
    rw [hall]
    exact mem_mapResources fun _ => Iff.rfl
  have hprivileged : (∀ c ∈ (stored p).containers ++ (stored p).initContainers, ¬ Privileged c) ↔
      ∀ c ∈ p.containers ++ p.initContainers, ¬ Privileged c := by
    rw [hall]
    exact mem_mapResources fun _ => Iff.rfl
  have hcontext : (∀ c ∈ (stored p).containers, ∃ s, c.securityContext = some s ∧ Matches s) ↔
      ∀ c ∈ p.containers, ∃ s, c.securityContext = some s ∧ Matches s :=
    mem_mapResources (f := defaulted) fun _ => Iff.rfl
  have hresources : ∀ c ∈ (stored p).containers, StatesResources c := by
    intro c' hc'
    obtain ⟨c, hc, rfl⟩ := List.mem_map.mp hc'
    exact defaulted_states (hp c hc)
  constructor
  · intro h
    exact ⟨⟨hlabels.mp h.labels, hpinned.mp h.pinned, hprivileged.mp h.notPrivileged, h.noHostPath⟩,
      h.runtimeDefault, hcontext.mp h.securityContext⟩
  · intro h
    obtain ⟨⟨hl, hpin, hpriv, hhost⟩, hruntime, hctx⟩ := h
    exact ⟨hlabels.mpr hl, hpinned.mpr hpin, hprivileged.mpr hpriv, hhost, hruntime,
      hcontext.mpr hctx, hresources⟩

/-- **The policy that asks for requests and limits has nothing to say** where the limit range is, and no
    other verdict changes: the policies let a pod in exactly when the constraints and the baseline let
    in the pod as it was sent. What the API server validates itself is not part of it. -/
theorem admits_stored_iff {p : Pod} (hns : p.ns = "demo-pac") (hp : WellFormed p) :
    Admits (review (stored p)) ↔
      (∀ c ∈ constraints, c.violations (review p) = []) ∧
        requirePodSecurityBaseline.denials (review p) = [] := by
  have hstored : (stored p).ns = "demo-pac" := hns
  rw [admits_iff hstored, meets_stored_iff hp, constraints_iff hns, requirePodSecurityBaseline_nil hns]

/-- The pod of the repository that is to be refused for want of resources, otherwise as the policies
    want it. -/
def noResources : Pod :=
  { demoPod [] [] with
    name := "no-resources-should-fail"
    containers := [{ app with resources := {} }] }

theorem noResources_wellFormed : WellFormed noResources := by simp [WellFormed, noResources]

theorem noResources_constraints : ∀ c ∈ constraints, c.violations (review noResources) = [] := by
  have hdemo : Meets (demoPod [] []) := (admits_iff rfl).mp (demoPod_admitted [] nofun nofun)
  refine (constraints_iff rfl).mpr ⟨hdemo.labels, ?_, ?_, hdemo.noHostPath⟩
  · intro c hc
    obtain rfl := List.mem_singleton.mp hc
    exact hdemo.pinned app List.mem_cons_self
  · intro c hc
    obtain rfl := List.mem_singleton.mp hc
    exact hdemo.notPrivileged app List.mem_cons_self

theorem noResources_baseline : requirePodSecurityBaseline.denials (review noResources) = [] := by
  have hdemo : Meets (demoPod [] []) := (admits_iff rfl).mp (demoPod_admitted [] nofun nofun)
  refine (requirePodSecurityBaseline_nil rfl).mpr ⟨hdemo.runtimeDefault, ?_⟩
  intro c hc
  obtain rfl := List.mem_singleton.mp hc
  exact hdemo.securityContext app List.mem_cons_self

/-- It is refused as it was sent, and let in as it is stored. -/
theorem admits_stored_iff_noResources :
    Admits (review (stored noResources)) ∧ ¬ Admits (review noResources) := by
  refine ⟨(admits_stored_iff rfl noResources_wellFormed).mpr
    ⟨noResources_constraints, noResources_baseline⟩, ?_⟩
  intro h
  obtain ⟨q, hq, _⟩ := (((admits_iff rfl).mp h).resources _ List.mem_cons_self).1.1
  cases hq

/-! ## 3. What the quota leaves room for -/

/-- The container says nothing of its memory limit. -/
def OpenMemory (c : Container) : Bool := (c.resources.limits.lookup "memory").isNone

/-- What happens to the pods of the namespace. -/
def demoStep (value : String → ℕ) : List Pod → PodAction → Option (List Pod) :=
  demoQuota.step value admission

variable {value : String → ℕ} {ps : List Pod}

/-- What is open takes the default. -/
theorem defaulted_open {c : Container} (h : OpenMemory c = true) :
    ((c.mapResources defaulted).resources.limits.lookup "memory") = some "256Mi" := by
  have hlookup : ((c.mapResources defaulted).resources.limits.lookup "memory") =
      (c.resources.limits.lookup "memory").or (demoLimitrange.default.lookup "memory") :=
    lookup_fill _ _ _
  rw [hlookup, Option.isNone_iff_eq_none.mp h]
  rfl

/-- A container of the pod, an init container too, leaves its memory open. -/
def OpenPod (p : Pod) : Bool := (p.containers ++ p.initContainers).any OpenMemory

/-- The containers, and the init containers, take the default. -/
def TakesDefault (c : Container) : Bool := c.resources.limits.lookup "memory" == some "256Mi"

theorem countP_openPods (sent : List Pod) : sent.countP OpenPod ≤
    (sent.map stored).countP fun p => (p.containers ++ p.initContainers).any TakesDefault := by
  rw [List.countP_map]
  refine List.countP_mono_left fun p _ hp => ?_
  obtain ⟨c, hc, hopen⟩ := List.any_eq_true.mp hp
  refine List.any_eq_true.mpr ⟨c.mapResources defaulted, ?_, beq_iff_eq.mpr (defaulted_open hopen)⟩
  show _ ∈ p.containers.map _ ++ p.initContainers.map _
  rw [← List.map_append]
  exact List.mem_map_of_mem hc

theorem countP_open (sent : List Pod) :
    (sent.flatMap (·.containers)).countP OpenMemory ≤
      ((sent.map stored).flatMap (·.containers)).countP TakesDefault := by
  have hcontainers : (sent.map stored).flatMap (·.containers) =
      (sent.flatMap (·.containers)).map (·.mapResources defaulted) := by
    rw [List.flatMap_map, List.map_flatMap]
    rfl
  rw [hcontainers, List.countP_map]
  exact List.countP_mono_left fun c _ hc => beq_iff_eq.mpr (defaulted_open hc)

/-- What takes the default takes its worth. -/
theorem default_le {c : Container} (h : TakesDefault c = true) :
    value "256Mi" ≤ amount value c.resources.limits "memory" := by
  rw [amount, beq_iff_eq.mp h]
  exact le_refl (value "256Mi")

/-- **No run exceeds the quota**, and what is open in memory takes the default: sixteen such containers
    fill the quota, or sixteen pods with one, while it has room for twenty pods. -/
theorem demo_within (hlimit : value "4Gi" = 16 * value "256Mi") (hpos : 0 < value "256Mi")
    (h : Run (demoStep value) free [] ps) :
    demoQuota.Within value ps ∧ (∃ sent : List Pod, ps = sent.map stored) ∧
      ∀ sent : List Pod, ps = sent.map stored →
        (sent.flatMap (·.containers)).countP OpenMemory ≤ 16 ∧ sent.countP OpenPod ≤ 16 := by
  have hempty : demoQuota.Within value [] := fun _ _ => Nat.zero_le _
  have hwithin : demoQuota.Within value ps := run_within hempty h
  have hsent : ps ∈ Set.range (List.map stored) := by
    rw [Set.range_list_map]
    intro p hp
    obtain ⟨submitted, hadmitted⟩ := run_admitted h p hp
    exact ⟨submitted, (admission_iff.mp hadmitted).2⟩
  refine ⟨hwithin, hsent.imp fun _ heq => heq.symm, ?_⟩
  rintro sent rfl
  have hused : (QuotaResource.limits "memory").usage value (sent.map stored) ≤
      16 * value "256Mi" := (hwithin (.limits "memory", "4Gi") (by decide)).trans_eq hlimit
  have hcontainers : ((sent.map stored).flatMap (·.containers)).countP TakesDefault * value "256Mi" ≤
      (QuotaResource.limits "memory").usage value (sent.map stored) :=
    count_le fun _ _ _ _ hc => default_le hc
  have hpods : ((sent.map stored).countP fun p =>
      (p.containers ++ p.initContainers).any TakesDefault) * value "256Mi" ≤
      (QuotaResource.limits "memory").usage value (sent.map stored) :=
    count_pods_le fun _ _ _ _ hc => default_le hc
  have hsixteen : ∀ n : ℕ, n * value "256Mi" ≤
      (QuotaResource.limits "memory").usage value (sent.map stored) → n ≤ 16 :=
    fun n hn => Nat.le_of_mul_le_mul_right (hn.trans hused) hpos
  exact ⟨(countP_open sent).trans (hsixteen _ hcontainers),
    (countP_openPods sent).trans (hsixteen _ hpods)⟩

/-- What the quantities of these policies are worth. -/
def quantity (s : String) : ℕ :=
  ([("20", 20000), ("2", 2000), ("4", 4000), ("50m", 50), ("200m", 200),
    ("64Mi", 64 * 2 ^ 20 * 1000), ("256Mi", 256 * 2 ^ 20 * 1000), ("2Gi", 2 * 2 ^ 30 * 1000),
    ("4Gi", 4 * 2 ^ 30 * 1000)].lookup s).getD 0

theorem admission_noResources : admission noResources = some (stored noResources) := by
  refine admission_iff.mpr ⟨(admits_iff rfl).mpr ((meets_stored_iff noResources_wellFormed).mpr ?_), rfl⟩
  exact ⟨(constraints_iff rfl).mp noResources_constraints,
    (requirePodSecurityBaseline_nil rfl).mp noResources_baseline⟩

theorem usage_replicate (r : QuotaResource) (p : Pod) (n : ℕ) :
    r.usage quantity (List.replicate n p) = n * r.ofPod quantity p := by
  rw [QuotaResource.usage, List.map_replicate, List.sum_replicate]
  rfl

/-- There is room for sixteen. -/
theorem room {n : ℕ} (h : n < 16) : demoStep quantity (List.replicate n (stored noResources))
    (.create noResources) = some (List.replicate (n + 1) (stored noResources)) := by
  have hadmits : demoQuota.admits quantity (List.replicate n (stored noResources))
      (stored noResources) = true := by
    refine Bool.and_eq_true_iff.mpr ⟨by decide, List.all_eq_true.mpr fun e he => ?_⟩
    have hfits : 16 * e.1.ofPod quantity (stored noResources) ≤ quantity e.2 := by
      revert e
      decide
    have hmul : (n + 1) * e.1.ofPod quantity (stored noResources) ≤
        16 * e.1.ofPod quantity (stored noResources) := Nat.mul_le_mul_right _ h
    rw [usage_replicate, decide_eq_true_iff]
    rw [Nat.add_mul, Nat.one_mul] at hmul
    exact hmul.trans hfits
  rw [demoStep, ResourceQuota.step, admission_noResources]
  exact if_pos hadmits

theorem run_full {n : ℕ} (h : n ≤ 16) :
    Run (demoStep quantity) free [] (List.replicate n (stored noResources)) := by
  induction n with
  | zero => exact .start
  | succ n ih => exact .step (ih (Nat.le_of_succ_le h)) trivial (room h)

/-- Sixteen pods of one such container: the quota is full. -/
theorem demo_within_full :
    Run (demoStep quantity) free [] ((List.replicate 16 noResources).map stored) ∧
      ((List.replicate 16 noResources).flatMap (·.containers)).countP OpenMemory ≤ 16 := by
  have hrun : Run (demoStep quantity) free [] ((List.replicate 16 noResources).map stored) := by
    rw [List.map_replicate]
    exact run_full le_rfl
  exact ⟨hrun, ((demo_within (by decide) (by decide) hrun).2.2 _ rfl).1⟩

end Pac
