/-
  File:      BlogDemo/Operator/Child.lean
  Subject:   THE CHILD DEPLOYMENT: what `mutate` makes of a Deployment, whatever it finds, and when
             the API server accepts it.

  * `mutated`, `mutate_ok`, `mutate_refused` -- `mutate` sets the owner, or another object is the
    controller already;
  * `mutated_again` -- doing it again to what the server stored changes nothing;
  * `labels_match` -- the selectors of two custom resources tell their pods apart;
  * **`mutated_valid`** -- the server accepts it exactly when the name is short, the replicas are
    not negative and a selector that was kept selects the new labels.
-/
import BlogDemo.Operator.Reconciler

namespace Operator

open Atomic Kube

variable {latest : String → Bool} {my : MyCRD} {d : Deployment}

/-! ## 1. The owner -/

/-- Another object is the controller of the Deployment. -/
def foreign (my : MyCRD) (d : Deployment) : Bool :=
  controlledByOther my.owner.controllerRef d.metadata.ownerReferences

/-- What `mutate` yields when the owner can be set. -/
def mutated (my : MyCRD) (d : Deployment) : Deployment :=
  { d with
    metadata := { d.metadata with
      ownerReferences := upsertOwnerRef my.owner.controllerRef d.metadata.ownerReferences }
    spec := mutateSpec my d.spec }

theorem mutated_key : (mutated my d).key = d.key := rfl

theorem mutate_ok (hd : d.key = my.deployKey) (hf : foreign my d = false) :
    mutate my d = .ok (mutated my d) := by
  have hns : my.owner.ns = d.metadata.ns := (congrArg Key.ns hd).symm
  unfold mutate
  rw [setController_ok hns hf]
  rfl

/-- Whose child a Deployment may be depends on the name only. -/
theorem foreign_congr {my my' : MyCRD} (h : my.key = my'.key) : foreign my d = foreign my' d := by
  have hname : my.name = my'.name := congrArg Key.name h
  simp only [foreign, controlledByOther, referSameObject, Owner.controllerRef, MyCRD.owner, hname]

theorem mutate_refused (hf : foreign my d = true) : ∃ e, mutate my d = .error e := by
  obtain ⟨e, he⟩ := setController_refused (o := my.owner) (m := d.metadata) hf
  unfold mutate
  rw [he]
  exact ⟨e, rfl⟩

theorem referSame_self : referSameObject my.owner.controllerRef my.owner.controllerRef = true := by
  have hg : groupOf "demo.example.com/v1alpha1" = some "demo.example.com".toList := by decide
  simp [referSameObject, Owner.controllerRef, MyCRD.owner, hg]

/-- A controller of another group, kind or name is another object. -/
theorem foreign_of_ref {ref : OwnerReference}
    (hc : getControllerOf d.metadata.ownerReferences = some ref)
    (h : groupOf ref.apiVersion ≠ groupOf my.owner.apiVersion ∨ ref.kind ≠ "MyCRD" ∨
      ref.name ≠ my.name) : foreign my d = true := by
  unfold foreign controlledByOther
  rw [hc, Bool.not_eq_true']
  by_contra hsame
  rw [Bool.not_eq_false] at hsame
  unfold referSameObject at hsame
  split at hsame
  · rename_i g g' hg hg'
    simp only [Bool.and_eq_true, beq_iff_eq] at hsame
    obtain ⟨⟨rfl, hkind⟩, hname⟩ := hsame
    rcases h with h | h | h
    · exact h (hg.trans hg'.symm)
    · exact h hkind
    · exact h hname
  · cases hsame

theorem frame_not_foreign : foreign my (frame my) = false := rfl

/-- Once the owner is set it is the controller. -/
theorem mutated_controller (hf : foreign my d = false) :
    getControllerOf (mutated my d).metadata.ownerReferences = some my.owner.controllerRef :=
  upsert_controller rfl hf

theorem mutated_not_foreign (hf : foreign my d = false) : foreign my (mutated my d) = false := by
  unfold foreign controlledByOther
  rw [mutated_controller hf]
  simp [referSame_self]

/-- A selector the server accepted is kept. -/
theorem mutated_selector (hd : d.valid = true) :
    (mutated my d).spec.selector = d.spec.selector := by
  show some (d.spec.selector.getD _) = d.spec.selector
  cases hs : d.spec.selector with
  | some s => rfl
  | none => simp [Deployment.valid, selectorValid, hs] at hd

/-! ## 2. Once is enough -/

/-- What the server stores differs from what `mutate` yields: the defaults are filled in. -/
theorem mutated_ne (hd : d.setDefaults latest = d) : mutated my d ≠ d := by
  intro h
  have hgrace : d.spec.template.spec.terminationGracePeriodSeconds =
      some (d.spec.template.spec.terminationGracePeriodSeconds.getD 30) :=
    congrArg (fun d => d.spec.template.spec.terminationGracePeriodSeconds) hd.symm
  have hnone : d.spec.template.spec.terminationGracePeriodSeconds = none :=
    congrArg (fun d => d.spec.template.spec.terminationGracePeriodSeconds) h.symm
  rw [hnone] at hgrace
  cases hgrace

/-- **`mutate` is idempotent** on what the server stores. -/
theorem mutated_again : (mutated my ((mutated my d).setDefaults latest)).setDefaults latest =
    (mutated my d).setDefaults latest := by
  have hrefs : upsertOwnerRef my.owner.controllerRef
      (upsertOwnerRef my.owner.controllerRef d.metadata.ownerReferences) =
        upsertOwnerRef my.owner.controllerRef d.metadata.ownerReferences :=
    upsert_again referSame_self
  simp only [mutated, mutateSpec, Deployment.setDefaults, strategy_setDefaults_again,
    Option.getD_some, hrefs]

/-! ## 3. The labels -/

theorem labels_lookup (name k : String) :
    (labels name).lookup k = if k = "mycrd" ∨ k = "app" then some name else none := by
  unfold labels
  by_cases hm : k = "mycrd"
  · subst hm
    simp
  · rw [Finmap.lookup_insert_of_ne _ hm]
    by_cases ha : k = "app"
    · subst ha
      simp
    · rw [Finmap.lookup_insert_of_ne _ ha]
      simp [hm, ha]

/-- **Selectors tell the custom resources apart.** -/
theorem labels_match (name name' : String) :
    LabelSelector.matches ⟨labels name, []⟩ (labels name') = true ↔ name = name' := by
  rw [matches_labels]
  constructor
  · intro h
    have := h "app" name (by simp [labels_lookup])
    simpa [labels_lookup] using this.symm
  · intro heq
    subst heq
    exact fun _ _ h => h

/-- The selector of a child that is created is one the server accepts. -/
theorem labels_selector (name : String) :
    selectorValid (some ⟨labels name, []⟩) (labels name) = true := by
  have hne : labels name ≠ ∅ := by
    intro h
    have happ : (labels name).lookup "app" = some name := by simp [labels_lookup]
    rw [h] at happ
    cases happ
  simp [selectorValid, LabelSelector.isEmpty, hne, (labels_match name name).mpr rfl]

theorem labels_valid (name : String) : labelValuesValid (labels name) = isValidLabelValue name := by
  have hkey : ∀ k, k ∈ (labels name).keys ↔ k = "mycrd" ∨ k = "app" := by
    intro k
    rw [Finmap.mem_keys, Finmap.mem_iff]
    simp only [labels_lookup]
    by_cases hk : k = "mycrd" ∨ k = "app"
    · simp [hk]
    · simp [hk]
  unfold labelValuesValid
  rw [Bool.eq_iff_iff, decide_eq_true_eq]
  constructor
  · intro h
    simpa [labels_lookup] using h "app" ((hkey "app").mpr (Or.inr rfl))
  · intro h k hk
    rw [labels_lookup, if_pos ((hkey k).mp hk)]
    exact h

/-! ## 4. What the server accepts -/

/-- A name the server admits is a label value when it is short. -/
theorem labelValue_of_name (h : isValidName my.name = true) :
    isValidLabelValue my.name = true ↔ my.name.length ≤ 63 := by
  simp only [isValidName, Bool.and_eq_true] at h
  constructor
  · intro hv
    simp only [isValidLabelValue, Bool.and_eq_true, decide_eq_true_eq] at hv
    exact hv.1.1.1
  · exact labelValue_of_subdomain h.2

theorem deployName_valid (h : isValidName my.name = true) (hlen : my.name.length ≤ 63) :
    isValidName my.deployName = true := by
  simp only [isValidName, Bool.and_eq_true, decide_eq_true_eq] at h ⊢
  have hlength : my.deployName.length = my.name.length + 7 :=
    String.length_append my.name "-deploy"
  exact ⟨by omega, subdomain_append h.2 (by decide)⟩

theorem image_valid (h : isTrimmed my.spec.image = true) :
    (podSpec my).containers.all Container.valid = true := by
  have himage : my.image != "" && isTrimmed my.image := by
    unfold MyCRD.image
    split
    · decide
    · rename_i hne
      simp [hne, h]
  simpa [podSpec, Container.valid] using himage

theorem replicas_valid : replicasValid (some my.replicas) = true ↔
    ∀ r, my.spec.replicas = some r → 0 ≤ r := by
  unfold MyCRD.replicas
  cases my.spec.replicas with
  | none => exact ⟨fun _ _ h => (nomatch h), fun _ => rfl⟩
  | some r => simp [replicasValid]

/-- **What the server checks of the child**, for a custom resource it admitted. -/
theorem mutated_valid (hname : isValidName my.name = true) (himage : isTrimmed my.spec.image = true)
    (hd : d.key = my.deployKey) : (mutated my d).valid = true ↔
      my.name.length ≤ 63 ∧ (∀ r, my.spec.replicas = some r → 0 ≤ r) ∧
        selectorValid (some (d.spec.selector.getD ⟨labels my.name, []⟩)) (labels my.name) = true := by
  have hdname : d.metadata.name = my.deployName := congrArg Key.name hd
  have hvalid : (mutated my d).valid = (isValidName my.deployName &&
      replicasValid (some my.replicas) &&
      selectorValid (some (d.spec.selector.getD ⟨labels my.name, []⟩)) (labels my.name) &&
      isValidLabelValue my.name && !(podSpec my).containers.isEmpty &&
      (podSpec my).containers.all Container.valid) := by
    rw [← labels_valid, ← hdname]
    rfl
  have hcontainers : (podSpec my).containers.isEmpty = false := rfl
  rw [hvalid, hcontainers, image_valid himage]
  simp only [Bool.and_eq_true, Bool.not_false, replicas_valid, labelValue_of_name hname, and_true]
  constructor
  · intro h
    obtain ⟨⟨⟨_, hr⟩, hs⟩, hlen⟩ := h
    exact ⟨hlen, hr, hs⟩
  · intro h
    obtain ⟨hlen, hr, hs⟩ := h
    exact ⟨⟨⟨deployName_valid hname hlen, hr⟩, hs⟩, hlen⟩

end Operator
