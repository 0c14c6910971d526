/-
  File:      BlogDemo/Operator/Admission.lean
  Subject:   IS THE CHILD ACCEPTED? The CRD schema admits custom resources whose child the server
             rejects, and then `Reconcile` fails for ever.

  * `Admitted` -- what the schema and the server ask of the custom resource;
  * `Acceptable`, `Fits`, **`acceptable_iff`** -- the child is acceptable, and the controller not
    stuck, exactly when name, replicas and a kept selector fit;
  * `negative` -- a custom resource that is admitted, and whose child never is.
-/
import BlogDemo.Operator.Runs

namespace Operator

open Atomic Kube

variable {latest : String → Bool} {c : Cluster latest} {my : MyCRD} {d : Deployment} {k : Key}

/-! ## 1. What is admitted, what is acceptable -/

/-- **The cluster accepted the custom resource**, and nobody else controls its child. -/
structure Admitted (my : MyCRD) (c : Cluster latest) : Prop where
  stored : c.mycrds.get my.key = some my
  name : isValidName my.name = true
  image : isTrimmed my.spec.image = true
  child : ∀ d, c.deployments.get my.deployKey = some d → foreign my d = false

/-- No call fails, and still `Reconcile` does, and leaves the cluster as it was. -/
def Stuck (k : Key) (c : Cluster latest) : Prop :=
  (∃ e, ((reconcile k).run (apply latest) c).2.1 = .error e) ∧ reconciled k c = c

/-- **The child is acceptable**: `mutate` yields an object that passes the server's validation, so
    that the controller is not stuck. -/
def Acceptable (my : MyCRD) (c : Cluster latest) : Prop :=
  (∃ d, mutate my (base my c) = .ok d ∧ d.valid = true) ∧ ¬ Stuck my.key c

/-- What the schema does not ask: a name that fits a label, replicas that are not negative, and a
    selector, where there is one already, that selects the labels `mutate` sets. -/
structure Fits (my : MyCRD) (c : Cluster latest) : Prop where
  name : my.name.length ≤ 63
  replicas : ∀ r, my.spec.replicas = some r → 0 ≤ r
  selector : ∀ d s, c.deployments.get my.deployKey = some d → d.spec.selector = some s →
    s.matches (labels my.name) = true

/-! ## 2. When the child is accepted -/

theorem Admitted.base_foreign (h : Admitted my c) : foreign my (base my c) = false := by
  cases hd : c.deployments.get my.deployKey with
  | none => rw [base_none hd, frame_not_foreign]
  | some d =>
      rw [base_some hd]
      exact h.child d hd

/-- The selector of the child: the one that was kept, or that of the labels. -/
theorem selector_iff : selectorValid
    (some ((base my c).spec.selector.getD ⟨labels my.name, []⟩)) (labels my.name) = true ↔
      ∀ d s, c.deployments.get my.deployKey = some d → d.spec.selector = some s →
        s.matches (labels my.name) = true := by
  cases hd : c.deployments.get my.deployKey with
  | none =>
      rw [base_none hd]
      exact ⟨fun _ _ _ h => (nomatch h), fun _ => labels_selector my.name⟩
  | some d =>
      obtain ⟨_, hvalid, _⟩ := c.deployments.keyed _ _ hd
      have hstored : selectorValid d.spec.selector d.spec.template.labels = true := by
        simp only [Deployment.valid, Bool.and_eq_true] at hvalid
        exact hvalid.1.1.1.2
      rw [base_some hd]
      cases hs : d.spec.selector with
      | none =>
          rw [hs] at hstored
          cases hstored
      | some s =>
          -- a selector that is stored selects something
          have hsome : s.isEmpty = false := by
            simp only [hs, selectorValid, Bool.and_eq_true, Bool.not_eq_true'] at hstored
            exact hstored.1
          simp only [selectorValid, Option.getD_some, hsome, Bool.not_false, Bool.true_and]
          constructor
          · intro h d s' hd' hs'
            cases hd'
            exact Option.some.inj (hs.symm.trans hs') ▸ h
          · exact fun h => h d s rfl hs

theorem accepted_iff (h : Admitted my c) : Accepted my c ↔ Fits my c := by
  rw [Accepted, mutated_valid h.name h.image base_key, selector_iff]
  exact ⟨fun ⟨hn, hr, hs⟩ => ⟨hn, hr, hs⟩, fun ⟨hn, hr, hs⟩ => ⟨hn, hr, hs⟩⟩

theorem stuck_iff (h : Admitted my c) : Stuck my.key c ↔ ¬ Accepted my c := by
  have hf := h.base_foreign
  constructor
  · rintro ⟨⟨e, he⟩, _⟩ ha
    rw [(run_settled h.stored hf ha).1] at he
    cases he
  · intro ha
    have hrun := (run_rejected h.stored hf ha).1
    exact ⟨⟨_, congrArg Prod.fst hrun⟩, congrArg Prod.snd hrun⟩

/-- **When the child of an admitted custom resource is acceptable.** -/
theorem acceptable_iff (h : Admitted my c) : Acceptable my c ↔ Fits my c := by
  rw [← accepted_iff h, Acceptable, stuck_iff h, not_not, mutate_ok base_key h.base_foreign]
  constructor
  · exact fun hboth => hboth.2
  · exact fun ha => ⟨⟨_, rfl, ha⟩, ha⟩

/-! ## 3. Admitted and never accepted -/

/-- The schema has no minimum for the replicas. -/
def negative : MyCRD :=
  { name := "demo", ns := "default", uid := "1", spec := { replicas := some (-1) } }

/-- It was created, and nothing else. -/
def negativeCluster : Cluster fun _ => false :=
  (⟨Keyed.empty, Keyed.empty⟩ : Cluster fun _ => false).putMyCRD negative

theorem negative_admitted : Admitted negative negativeCluster where
  stored := rfl
  name := by decide
  image := by decide
  child _ h := nomatch h

theorem negative_acceptable_iff : Acceptable negative negativeCluster ↔ Fits negative negativeCluster :=
  acceptable_iff negative_admitted

theorem negative_not_acceptable :
    ¬ ∀ (my : MyCRD) (c : Cluster fun _ => false), Admitted my c → Acceptable my c := by
  intro h
  obtain ⟨⟨d, hd, hvalid⟩, _⟩ := h negative negativeCluster negative_admitted
  rw [mutate_ok base_key negative_admitted.base_foreign] at hd
  cases hd
  have hr := ((mutated_valid (by decide) (by decide) base_key).mp hvalid).2.1 (-1) rfl
  exact absurd hr (by decide)

end Operator
