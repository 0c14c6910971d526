/-
  File:      BlogDemo/Pac/Coverage.lean
  Subject:   WHICH PODS THE POLICY SET LETS IN, in the pod's own terms, and which of its containers it
             has looked at.

  * `admits_iff` -- the policy set, said of the pod: every constraint and every policy by what it
    asks of the pod's fields;
  * **`covered_iff`** -- an admitted pod has all its containers covered if and only if its init
    containers and its ephemeral containers meet what the Kyverno pattern asks of `containers`
    alone, and no ephemeral container is privileged.
-/
import BlogDemo.Pac.Policies
import BlogDemo.Lib.Kube.Pod
import Mathlib.Data.List.Dedup

namespace Pac

open Js Admission Rego CoreV1

/-! ## 1. Pods of the namespace -/

/-- The request the API server asks about for a pod. -/
def review (p : Pod) : Review where
  group := ""
  kind := "Pod"
  ns := p.ns
  object := p.toJson

def Privileged (c : Container) : Prop :=
  ∃ s, c.securityContext = some s ∧ s.privileged = some true

/-- What the baseline demands of a container's own security context. -/
structure Restricts (s : SecurityContext) : Prop where
  runAsNonRoot : s.runAsNonRoot = some true
  noEscalation : s.allowPrivilegeEscalation = some false
  readOnlyRoot : s.readOnlyRootFilesystem = some true
  dropsAll : ∃ caps, s.capabilities = some caps ∧ "ALL" ∈ caps.drop

def Restricted (c : Container) : Prop := ∃ s, c.securityContext = some s ∧ Restricts s

/-- **Every container of the pod, of all three kinds, is covered, and no volume is a path of the
    host.** -/
structure Covered (p : Pod) : Prop where
  notPrivileged :
    ∀ c ∈ p.containers ++ p.initContainers ++ p.ephemeralContainers, ¬ Privileged c
  restricted :
    ∀ c ∈ p.containers ++ p.initContainers ++ p.ephemeralContainers, Restricted c
  noHostPath : ∀ v ∈ p.volumes, v.hostPath = none

/-! ## 2. What the templates report of a pod -/

theorem each_ofList (xs : List Json) : each (ofList xs) = xs := by
  by_cases h : xs = []
  · subst h
    rfl
  · simp only [ofList, if_neg h, each]

theorem allContainers_toJson (p : Pod) :
    allContainers p.toJson = (p.containers ++ p.initContainers).map (·.toJson) := by
  simp only [allContainers, ref_cons, ref_nil, Pod.get?_spec, Pod.get?_containers,
    Pod.get?_initContainers, Option.bind_some, Option.bind_fun_some, each_ofList, List.map_append]
  rfl

theorem privilegedViolation_none (c : Container) :
    privilegedViolation c.toJson = none ↔ ¬ Privileged c := by
  cases hs : c.securityContext with
  | none => simp [privilegedViolation, Privileged, hs]
  | some s => simp [privilegedViolation, Privileged, hs]

theorem hostPathViolation_none (v : Volume) :
    hostPathViolation v.toJson = none ↔ v.hostPath = none := by
  cases hv : v.hostPath with
  | none => simp [hostPathViolation, satisfied, hv]
  | some path => simp [hostPathViolation, satisfied, hv]

/-- No violation: no container and no init container is privileged. -/
theorem k8sDisallowPrivileged_nil (p : Pod) :
    k8sDisallowPrivileged p.toJson = [] ↔
      ∀ c ∈ p.containers ++ p.initContainers, ¬ Privileged c := by
  rw [k8sDisallowPrivileged, allContainers_toJson, List.filterMap_map, List.filterMap_eq_nil_iff]
  exact forall₂_congr fun c _ => privilegedViolation_none c

/-- No violation: no volume is a path of the host. -/
theorem k8sDisallowHostPath_nil (p : Pod) :
    k8sDisallowHostPath p.toJson = [] ↔ ∀ v ∈ p.volumes, v.hostPath = none := by
  have hvolumes : each (ref p.toJson ["spec", "volumes"]) = p.volumes.map (·.toJson) := by
    simp [each_ofList]
  rw [k8sDisallowHostPath, hvolumes, List.filterMap_map, List.filterMap_eq_nil_iff]
  exact forall₂_congr fun v _ => hostPathViolation_none v

/-- A container whose image has a tag or a digest, and not the tag `latest`. -/
def Pinned (c : Container) : Prop :=
  c.image ≠ "" → isTagless (.str c.image) = false ∧ isLatest (.str c.image) = false

theorem mem_images {cs : List Container} {image : Json} :
    image ∈ (cs.map (·.toJson)).filterMap (ref · ["image"]) ↔
      ∃ c ∈ cs, c.image ≠ "" ∧ image = .str c.image := by
  simp only [List.filterMap_map, List.mem_filterMap, Function.comp_apply, ref_cons, ref_nil,
    Container.get?_image, Option.bind_fun_some, ofText]
  refine exists_congr fun c => and_congr_right fun _ => ?_
  by_cases hi : c.image = ""
  · simp [hi]
  · simp [hi, eq_comm]

/-- No violation: the images of the containers and of the init containers are pinned. -/
theorem k8sDisallowLatest_nil (p : Pod) :
    k8sDisallowLatest p.toJson = [] ↔ ∀ c ∈ p.containers ++ p.initContainers, Pinned c := by
  simp only [k8sDisallowLatest, allContainers_toJson, List.append_eq_nil_iff, List.map_eq_nil_iff,
    List.filter_eq_nil_iff, mem_images, Bool.not_eq_true]
  constructor
  · intro h c hc hi
    exact ⟨h.1 _ ⟨c, hc, hi, rfl⟩, h.2 _ ⟨c, hc, hi, rfl⟩⟩
  · intro h
    refine ⟨?_, ?_⟩
    · intro image himage
      obtain ⟨c, hc, hi, rfl⟩ := himage
      exact (h c hc hi).1
    · intro image himage
      obtain ⟨c, hc, hi, rfl⟩ := himage
      exact (h c hc hi).2

/-- No violation: every label that is required is there. -/
theorem k8sRequiredLabels_nil (labels : List String) (p : Pod) :
    k8sRequiredLabels labels p.toJson = [] ↔ ∀ l ∈ labels, ∃ v, p.labels.lookup l = some v := by
  have hlabel : ∀ l, satisfied (ref p.toJson ["metadata", "labels", l]) = true ↔
      ∃ v, p.labels.lookup l = some v := by
    intro l
    have href : ref p.toJson ["metadata", "labels", l] = (p.labels.lookup l).map .str := by
      simp [get?_ofMap]
    rw [href]
    cases p.labels.lookup l with
    | none => simp [satisfied]
    | some v => simp [satisfied]
  simp only [k8sRequiredLabels, ite_eq_right_iff, imp_false, List.cons_ne_nil,
    gt_iff_lt, Nat.not_lt, Nat.le_zero_eq, List.length_eq_zero_iff, List.filter_eq_nil_iff,
    List.mem_dedup, Bool.not_eq_true', Bool.not_eq_false, hlabel]

/-! ## 3. What the patterns ask of a pod -/

theorem map_holds_omitEmpty (fields : List (String × Pattern)) (xs : List (String × Option Json)) :
    (Pattern.map fields).holds (some (omitEmpty xs)) = holdsAll fields (omitEmpty xs) := rfl

theorem bool_holds (b : Bool) (v : Option Bool) :
    (Pattern.scalar (.bool b)).holds (v.map .bool) = true ↔ v = some b := by
  cases v with
  | none => simp
  | some b' =>
    rw [Option.map_some, Pattern.scalar_holds_bool, Scalar.test, beq_iff_eq, Option.some.injEq]
    exact eq_comm

/-- The list is there, so it is not empty, and there is nothing but `ALL` in it. -/
def DropsOnlyAll (caps : Capabilities) : Prop := caps.drop ≠ [] ∧ ∀ d ∈ caps.drop, d = "ALL"

theorem drop_holds (caps : Capabilities) :
    (Pattern.eachScalar (.text "ALL")).holds (ofList (caps.drop.map .str)) = true ↔
      DropsOnlyAll caps := by
  by_cases hd : caps.drop = []
  · simp [DropsOnlyAll, ofList, hd]
  · have hlist : ofList (caps.drop.map .str) = some (.arr (caps.drop.map .str)) := by
      simp [ofList, hd]
    have htest : ∀ d, (Scalar.text "ALL").test (.str d) = true ↔ d = "ALL" :=
      Scalar.text_test (by decide)
    rw [hlist, Pattern.eachScalar_holds_arr, List.all_map, List.all_eq_true]
    exact ⟨fun h => ⟨hd, fun d hmem => (htest d).mp (h d hmem)⟩,
      fun h d hmem => (htest d).mpr (h.2 d hmem)⟩

/-- What the pattern asks of a container's security context. -/
structure Matches (s : SecurityContext) : Prop where
  runAsNonRoot : s.runAsNonRoot = some true
  noEscalation : s.allowPrivilegeEscalation = some false
  readOnlyRoot : s.readOnlyRootFilesystem = some true
  drops : ∃ caps, s.capabilities = some caps ∧ DropsOnlyAll caps

theorem securityContextPattern_holds (c : Container) :
    (Pattern.map securityContextPattern).holds (c.toJson.get? "securityContext") = true ↔
      ∃ s, c.securityContext = some s ∧ Matches s := by
  rw [Container.get?_securityContext]
  cases c.securityContext with
  | none => simp
  | some s =>
    have hcaps : (Pattern.map [("drop", .eachScalar (.text "ALL"))]).holds
        (s.capabilities.map (·.toJson)) = true ↔
          ∃ caps, s.capabilities = some caps ∧ DropsOnlyAll caps := by
      cases s.capabilities with
      | none => simp
      | some caps =>
        rw [Option.map_some, Capabilities.toJson, map_holds_omitEmpty]
        simp [holdsAll, drop_holds]
    rw [Option.map_some, SecurityContext.toJson, map_holds_omitEmpty]
    simp only [securityContextPattern, holdsAll, get?_omitEmpty_cons, get?_omitEmpty_nil,
      String.reduceEq, if_true, if_false, Option.or_none, Bool.and_eq_true, Bool.and_true,
      bool_holds, hcaps, Option.some.injEq, exists_eq_left']
    constructor
    · intro h
      exact ⟨h.1, h.2.1, h.2.2.1, h.2.2.2⟩
    · intro h
      exact ⟨h.runAsNonRoot, h.noEscalation, h.readOnlyRoot, h.drops⟩

/-- The profile of the pod itself. -/
def RuntimeDefault (p : Pod) : Prop :=
  ∃ s, p.securityContext = some s ∧ s.seccompProfileType = some "RuntimeDefault"

theorem seccompPattern_holds (p : Pod) :
    (Pattern.map [("seccompProfile", .map [("type", .scalar (.text "RuntimeDefault"))])]).holds
      (p.spec.get? "securityContext") = true ↔ RuntimeDefault p := by
  rw [Pod.get?_securityContext]
  cases hs : p.securityContext with
  | none => simp [RuntimeDefault, hs]
  | some s =>
    rw [Option.map_some, PodSecurityContext.toJson, map_holds_omitEmpty]
    cases ht : s.seccompProfileType with
    | none => simp [RuntimeDefault, hs, ht, holdsAll]
    | some type =>
      have hget : (Json.obj [("type", .str type)]).get? "type" = some (.str type) := rfl
      have htest := @Scalar.text_test "RuntimeDefault" (by decide) type
      simp [RuntimeDefault, hs, ht, holdsAll, hget, htest]

/-- A pattern on the list of containers asks it of each of them. -/
theorem eachContainer_holds (fields : List (String × Pattern)) (cs : List Container) :
    (Pattern.eachMap fields).holds (some (.arr (cs.map (·.toJson)))) = true ↔
      ∀ c ∈ cs, holdsAll fields c.toJson = true := by
  rw [Pattern.eachMap_holds_arr, List.all_map, List.all_eq_true]
  exact Iff.rfl

/-- A quantity of the resource is stated. -/
def States (m : List (String × String)) (resource : String) : Prop :=
  ∃ q, m.lookup resource = some q ∧ q ≠ ""

theorem quantity_holds (m : List (String × String)) (resource : String) :
    (Pattern.scalar (.text "?*")).holds ((m.lookup resource).map .str) = true ↔
      States m resource := by
  cases hq : m.lookup resource with
  | none => simp [States, hq]
  | some q =>
    rw [Option.map_some, Pattern.scalar_holds_str, Scalar.test]
    refine (wild_some q.toList).trans ?_
    simp [States, hq]

theorem cpuAndMemory_holds (m : List (String × String)) :
    (Pattern.map cpuAndMemory).holds (ofMap m) = true ↔ States m "cpu" ∧ States m "memory" := by
  have hget := get?_ofMap m
  cases hm : ofMap m with
  | none =>
    rw [hm] at hget
    simp only [Pattern.holds_none, Bool.false_eq_true, false_iff, not_and]
    intro hcpu
    obtain ⟨q, hq, _⟩ := hcpu
    have := hget "cpu"
    rw [hq] at this
    cases this
  | some x =>
    obtain ⟨entries, rfl⟩ : ∃ entries, x = .obj entries := by
      simp only [ofMap] at hm
      split at hm
      · cases hm
      · exact ⟨_, (Option.some.inj hm).symm⟩
    rw [hm] at hget
    simp only [Option.bind_some] at hget
    simp only [Pattern.map_holds_obj, cpuAndMemory, holdsAll, hget, Bool.and_eq_true,
      quantity_holds, and_true]

/-- Requests and limits of CPU and memory are stated. -/
def StatesResources (c : Container) : Prop :=
  (States c.resources.requests "cpu" ∧ States c.resources.requests "memory") ∧
    States c.resources.limits "cpu" ∧ States c.resources.limits "memory"

theorem resourcesPattern_holds (c : Container) :
    holdsAll [("resources", .map
      [("requests", .map cpuAndMemory), ("limits", .map cpuAndMemory)])] c.toJson = true ↔
      StatesResources c := by
  simp only [holdsAll, Container.get?_resources, Bool.and_true]
  rw [ResourceRequirements.toJson, map_holds_omitEmpty]
  simp [holdsAll, cpuAndMemory_holds, StatesResources]

/-! ## 4. The policy set, said of a pod -/

theorem covers_pod {p : Pod} (h : p.ns = "demo-pac") (name : String)
    (violation : Json → List Violation) :
    (podConstraint name violation).violations (review p) = violation p.toJson := by
  have hcovers : (podConstraint name violation).covers (review p) = true := by
    simp [Constraint.covers, podConstraint, review, h]
  rw [Constraint.violations, if_pos hcovers]
  rfl

/-- A policy of one rule that matches the pods of the namespace. -/
theorem denials_nil {p : Pod} (h : p.ns = "demo-pac") {policy : ClusterPolicy} {rule : Rule}
    (henforce : policy.validationFailureAction = .Enforce) (hrule : policy.rules = [rule])
    (hkind : rule.kinds = ["Pod"]) (hns : rule.namespaces = ["demo-pac"]) :
    policy.denials (review p) = [] ↔ holdsAll rule.pattern p.toJson = true := by
  have hfails : rule.fails (review p) = !holdsAll rule.pattern p.toJson := by
    simp [Rule.fails, hkind, hns, review, h]
  rw [ClusterPolicy.denials, if_pos henforce, hrule, List.map_eq_nil_iff, List.filter_eq_nil_iff]
  simp [hfails]

theorem specPattern_holds (fields : List (String × Pattern)) (p : Pod) :
    holdsAll [("spec", .map fields)] p.toJson = holdsAll fields p.spec := by
  rw [holdsAll, holdsAll, Pod.get?_spec, Bool.and_true]
  exact map_holds_omitEmpty ..

theorem requirePodSecurityBaseline_nil {p : Pod} (h : p.ns = "demo-pac") :
    requirePodSecurityBaseline.denials (review p) = [] ↔
      RuntimeDefault p ∧ ∀ c ∈ p.containers, ∃ s, c.securityContext = some s ∧ Matches s := by
  rw [denials_nil h rfl rfl rfl rfl, specPattern_holds]
  simp only [holdsAll, Bool.and_eq_true, Bool.and_true, seccompPattern_holds, Pod.get?_containers,
    eachContainer_holds, securityContextPattern_holds]

theorem requireRequestsLimits_nil {p : Pod} (h : p.ns = "demo-pac") :
    requireRequestsLimits.denials (review p) = [] ↔ ∀ c ∈ p.containers, StatesResources c := by
  rw [denials_nil h rfl rfl rfl rfl, specPattern_holds, holdsAll, holdsAll, Bool.and_true,
    Pod.get?_containers, eachContainer_holds]
  exact forall₂_congr fun c _ => resourcesPattern_holds c

theorem restrictServiceLoadbalancer_nil (p : Pod) :
    restrictServiceLoadbalancer.denials (review p) = [] := by
  simp [restrictServiceLoadbalancer, ClusterPolicy.denials, Rule.fails, review]

/-- **What the policy set asks of a pod.** -/
structure Meets (p : Pod) : Prop where
  labels : ∀ l ∈ ["app", "owner"], ∃ v, p.labels.lookup l = some v
  pinned : ∀ c ∈ p.containers ++ p.initContainers, Pinned c
  notPrivileged : ∀ c ∈ p.containers ++ p.initContainers, ¬ Privileged c
  noHostPath : ∀ v ∈ p.volumes, v.hostPath = none
  runtimeDefault : RuntimeDefault p
  securityContext : ∀ c ∈ p.containers, ∃ s, c.securityContext = some s ∧ Matches s
  resources : ∀ c ∈ p.containers, StatesResources c

/-- **A pod of the namespace is admitted if and only if it meets all of it.** -/
theorem admits_iff {p : Pod} (h : p.ns = "demo-pac") : Admits (review p) ↔ Meets p := by
  constructor
  · intro ha
    have hlabels := ha.gatekeeper demoRequiredLabels (by simp [constraints])
    have hlatest := ha.gatekeeper demoDisallowLatest (by simp [constraints])
    have hprivileged := ha.gatekeeper demoDisallowPrivileged (by simp [constraints])
    have hhost := ha.gatekeeper demoDisallowHostpath (by simp [constraints])
    have hbaseline := ha.kyverno requirePodSecurityBaseline (by simp [clusterPolicies])
    have hresources := ha.kyverno requireRequestsLimits (by simp [clusterPolicies])
    rw [demoRequiredLabels, covers_pod h, k8sRequiredLabels_nil] at hlabels
    rw [demoDisallowLatest, covers_pod h, k8sDisallowLatest_nil] at hlatest
    rw [demoDisallowPrivileged, covers_pod h, k8sDisallowPrivileged_nil] at hprivileged
    rw [demoDisallowHostpath, covers_pod h, k8sDisallowHostPath_nil] at hhost
    obtain ⟨hseccomp, hcontexts⟩ := (requirePodSecurityBaseline_nil h).mp hbaseline
    exact ⟨hlabels, hlatest, hprivileged, hhost, hseccomp, hcontexts,
      (requireRequestsLimits_nil h).mp hresources⟩
  · intro hm
    refine ⟨?_, ?_⟩
    · simp only [constraints, List.forall_mem_cons, List.not_mem_nil, false_imp_iff,
        implies_true, and_true, demoRequiredLabels, demoDisallowLatest, demoDisallowPrivileged,
        demoDisallowHostpath, covers_pod h]
      exact ⟨(k8sRequiredLabels_nil _ p).mpr hm.labels, (k8sDisallowLatest_nil p).mpr hm.pinned,
        (k8sDisallowPrivileged_nil p).mpr hm.notPrivileged,
        (k8sDisallowHostPath_nil p).mpr hm.noHostPath⟩
    · simp only [clusterPolicies, List.forall_mem_cons, List.not_mem_nil, false_imp_iff,
        implies_true, and_true]
      exact ⟨(requirePodSecurityBaseline_nil h).mpr ⟨hm.runtimeDefault, hm.securityContext⟩,
        (requireRequestsLimits_nil h).mpr hm.resources, restrictServiceLoadbalancer_nil p⟩

/-! ## 5. Which containers it has looked at -/

theorem Matches.restricts {s : SecurityContext} (h : Matches s) : Restricts s := by
  obtain ⟨caps, hcaps, hne, hall⟩ := h.drops
  obtain ⟨d, hd⟩ := List.exists_mem_of_ne_nil _ hne
  exact ⟨h.runAsNonRoot, h.noEscalation, h.readOnlyRoot, caps, hcaps, hall d hd ▸ hd⟩

/-- **What the policies have left to the init containers and the ephemeral containers.** -/
theorem covered_iff {p : Pod} (h : p.ns = "demo-pac") (ha : Admits (review p)) :
    Covered p ↔
      (∀ c ∈ p.initContainers, Restricted c) ∧
      ∀ c ∈ p.ephemeralContainers, Restricted c ∧ ¬ Privileged c := by
  have hm := (admits_iff h).mp ha
  constructor
  · intro hcov
    refine ⟨fun c hc => hcov.restricted c ?_, fun c hc => ⟨hcov.restricted c ?_,
      hcov.notPrivileged c ?_⟩⟩
    · simp [hc]
    · simp [hc]
    · simp [hc]
  · intro hrest
    obtain ⟨hinit, heph⟩ := hrest
    refine ⟨fun c hc => ?_, fun c hc => ?_, hm.noHostPath⟩
    · rcases List.mem_append.mp hc with hc | hc
      · exact hm.notPrivileged c hc
      · exact (heph c hc).2
    · rcases List.mem_append.mp hc with hc | hc
      · rcases List.mem_append.mp hc with hc | hc
        · -- the pattern is on this list
          obtain ⟨s, hs, hmatches⟩ := hm.securityContext c hc
          exact ⟨s, hs, hmatches.restricts⟩
        · exact hinit c hc
      · exact (heph c hc).1

/-- The container of the repository's own test pod, with the context the policy wants. -/
def app : Container where
  name := "app"
  image := "busybox:1.36"
  resources :=
    { requests := [("cpu", "50m"), ("memory", "64Mi")]
      limits := [("cpu", "200m"), ("memory", "256Mi")] }
  securityContext := some
    { runAsNonRoot := some true
      allowPrivilegeEscalation := some false
      readOnlyRootFilesystem := some true
      capabilities := some { drop := ["ALL"] } }

/-- An init container without a security context. -/
def setup : Container where
  name := "setup"
  image := "busybox:1.36"

def debugger : Container where
  name := "debugger"
  image := "busybox:1.36"
  securityContext := some { privileged := some true }

def demoPod (initContainers ephemeralContainers : List Container) : Pod where
  name := "demo"
  ns := "demo-pac"
  labels := [("app", "demo"), ("owner", "demo")]
  securityContext := some { seccompProfileType := some "RuntimeDefault" }
  containers := [app]
  initContainers := initContainers
  ephemeralContainers := ephemeralContainers

theorem busybox_pinned {c : Container} (h : c.image = "busybox:1.36") : Pinned c := by
  intro _
  rw [h]
  exact ⟨by decide, by decide⟩

theorem demoPod_admitted {inits : List Container} (ephemerals : List Container)
    (himage : ∀ c ∈ inits, c.image = "busybox:1.36") (hpriv : ∀ c ∈ inits, ¬ Privileged c) :
    Admits (review (demoPod inits ephemerals)) := by
  have happ : ¬ Privileged app := by
    intro hpriv'
    obtain ⟨s, hs, hp⟩ := hpriv'
    cases hs
    cases hp
  refine (admits_iff rfl).mpr ⟨?_, ?_, ?_, ?_, ⟨_, rfl, rfl⟩, ?_, ?_⟩
  · simp [demoPod, List.lookup_cons]
  · intro c hc
    rcases List.mem_cons.mp hc with rfl | hc
    · exact busybox_pinned rfl
    · exact busybox_pinned (himage c hc)
  · intro c hc
    rcases List.mem_cons.mp hc with rfl | hc
    · exact happ
    · exact hpriv c hc
  · simp [demoPod]
  · intro c hc
    obtain rfl := List.mem_singleton.mp hc
    exact ⟨_, rfl, rfl, rfl, rfl, _, rfl, by simp, by simp⟩
  · intro c hc
    obtain rfl := List.mem_singleton.mp hc
    simp [StatesResources, States, app, List.lookup_cons]

theorem covered_iff_demoPod : Covered (demoPod [app] []) := by
  have ha : Admits (review (demoPod [app] [])) := by
    refine demoPod_admitted [] (by simp [app]) ?_
    simp [app, Privileged]
  refine (covered_iff rfl ha).mpr ⟨?_, by simp [demoPod]⟩
  intro c hc
  obtain rfl := List.mem_singleton.mp hc
  exact ⟨_, rfl, rfl, rfl, rfl, _, rfl, by simp⟩

/-- A pod whose init container runs as root with all its capabilities is let in, and so is one with
    a privileged ephemeral container. -/
theorem demoPod_not_covered :
    (Admits (review (demoPod [setup] [])) ∧ ¬ Covered (demoPod [setup] [])) ∧
      Admits (review (demoPod [] [debugger])) ∧ ¬ Covered (demoPod [] [debugger]) := by
  refine ⟨⟨demoPod_admitted [] (by simp [setup]) (by simp [setup, Privileged]), ?_⟩,
    demoPod_admitted _ (by simp) (by simp), ?_⟩
  · intro h
    obtain ⟨s, hs, -⟩ := h.restricted setup (by simp [demoPod])
    cases hs
  · intro h
    exact h.notPrivileged debugger (by simp [demoPod]) ⟨_, rfl, rfl⟩

end Pac
