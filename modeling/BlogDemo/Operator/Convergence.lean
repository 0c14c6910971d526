/-
  File:      BlogDemo/Operator/Convergence.lean
  Subject:   CONVERGENCE: from every cluster that users, others and failing runs can make, the first
             run of `Reconcile` in which no call fails settles the custom resource and its child.

  * `Change`, `Reachable` -- what happens to the cluster between runs;
  * `Unclaimed`, `reachable_unclaimed` -- the invariant: nobody else controls the child;
  * `Partial`, `partial_run` -- what any number of failing runs leaves behind;
  * `Converged`, **`converges`** -- the cluster after a run in which no call fails.
-/
import BlogDemo.Operator.Isolation
import Mathlib.Logic.Relation

namespace Operator

open Atomic Kube
open Relation (ReflTransGen)

variable {latest : String → Bool} {c c' c₁ c₂ : Cluster latest} {my : MyCRD} {d : Deployment}
  {k : Key}

/-! ## 1. Between the runs -/

/-- **What happens to the cluster**: users create and edit custom resources, others delete and edit
    their children, and the operator runs, whichever of its calls fail. -/
inductive Change : Cluster latest → Cluster latest → Prop where
  | createMyCRD (c : Cluster latest) (my : MyCRD) (hnew : c.mycrds.get my.key = none) :
      Change c (c.putMyCRD my)
  | editSpec (c : Cluster latest) (my : MyCRD) (spec : MyCRDSpec)
      (hmy : c.mycrds.get my.key = some my) : Change c (c.putMyCRD { my with spec := spec })
  | reconcile (c c' : Cluster latest) {k : Key} {es r}
      (h : Exec (effect latest) (reconcile k) c es r c') : Change c c'
  | deleteChild (c : Cluster latest) (k : Key) :
      Change c { c with deployments := c.deployments.erase (childKey k) }
  /-- Replicas, template, annotations, strategy and the like: name, owners and selector stay. -/
  | editChild (c : Cluster latest) (d d' : Deployment) (hv : d'.valid = true)
      (hd : c.deployments.get d.key = some d) (hkey : d'.key = d.key)
      (howners : d'.metadata.ownerReferences = d.metadata.ownerReferences)
      (hselector : d'.spec.selector = d.spec.selector) : Change c (c.putDeployment d' hv)

/-- No other object controls the child of the custom resource under `k`, if there is one. -/
def Unclaimed (k : Key) (c : Cluster latest) : Prop :=
  ∀ my d, my.key = k → c.deployments.get (childKey k) = some d → foreign my d = false

/-- The clusters that can be reached from one in which nobody else controls the child. -/
def Reachable (k : Key) (c : Cluster latest) : Prop :=
  ∃ c₀, Unclaimed k c₀ ∧ ReflTransGen Change c₀ c

theorem unclaimed_base (h : Unclaimed k c) (hk : my.key = k) : foreign my (base my c) = false := by
  cases hd : c.deployments.get my.deployKey with
  | none => rw [base_none hd, frame_not_foreign]
  | some d =>
      rw [base_some hd]
      exact h my d hk (hk ▸ hd)

/-- A run leaves the child to its custom resource. -/
theorem unclaimed_written (hk : my.key = k) (hf : foreign my (base my c) = false)
    (ha : Accepted my c) : Unclaimed k (written my c ha) := by
  intro my' d hk' hd
  rw [← hk, ← deployKey_key, written_child ha, Option.some.injEq] at hd
  rw [← hd, foreign_congr (hk'.trans hk.symm)]
  exact mutated_not_foreign hf

theorem unclaimed_exec {k' : Key} {es r} (h : Unclaimed k c)
    (he : Exec (effect latest) (reconcile k') c es r c') : Unclaimed k c' := by
  by_cases hk : k' = k
  · subst hk
    rcases exec_reconcile he with rfl | ⟨my, hmy, hf, ha, rfl | rfl⟩
    · exact h
    · exact unclaimed_written (c.mycrds.keyed _ _ hmy) hf ha
    · exact unclaimed_written (c.mycrds.keyed _ _ hmy) hf ha
  · intro my d hmy hd
    rw [(exec_onlyOwn he).deployments _ fun h => hk (childKey_injective h).symm] at hd
    exact h my d hmy hd

theorem unclaimed_change (h : Unclaimed k c) (hs : Change c c') : Unclaimed k c' := by
  cases hs with
  | createMyCRD my hnew => exact h
  | editSpec my spec hmy => exact h
  | reconcile _ he => exact unclaimed_exec h he
  | deleteChild k' =>
      intro my d hmy hd
      exact h my d hmy (c.deployments.of_erase hd).2
  | editChild d₀ d' hv hd₀ hkey howners hselector =>
      intro my d hmy hd
      rw [Cluster.putDeployment_get] at hd
      split at hd
      · rename_i hk
        cases hd
        have hf : foreign my d₀ = false := h my d₀ hmy (by rw [hk, hkey]; exact hd₀)
        have hsame : foreign my d' = foreign my d₀ :=
          congrArg (controlledByOther my.owner.controllerRef) howners
        exact hsame.trans hf
      · exact h my d hmy hd

theorem reachable_unclaimed (h : Reachable k c) : Unclaimed k c := by
  obtain ⟨c₀, hc₀, hrun⟩ := h
  induction hrun with
  | refl => exact hc₀
  | tail _ hs ih => exact unclaimed_change ih hs

/-! ## 2. Failing runs -/

/-- What failing runs for `my` leave behind in the cluster `c`. -/
def Partial (my : MyCRD) (c c₁ : Cluster latest) : Prop :=
  c₁ = c ∨ ∃ ha : Accepted my c, c₁ = written my c ha ∨ c₁ = settled my c ha

/-- Where the child is stored, storing it again changes nothing. -/
theorem written_again (hd : c.deployments.get my.deployKey =
    some ((mutated my d).setDefaults latest)) (ha : Accepted my c) : written my c ha = c := by
  have hkey : (mutated my (base my c)).key = my.deployKey := base_key
  have hbase : (mutated my (base my c)).setDefaults latest = (mutated my d).setDefaults latest := by
    rw [base_some hd, mutated_again]
  exact Cluster.putDeployment_same (by rw [hkey, hd, hbase])

theorem settled_again (hd : c.deployments.get my.deployKey =
    some ((mutated my d).setDefaults latest)) (ha : Accepted my c) :
    settled my c ha = c.putMyCRD { my with status := ⟨d.status.availableReplicas⟩ } := by
  have hreported : reported my c = { my with status := ⟨d.status.availableReplicas⟩ } := by
    rw [reported, base_some hd]
    rfl
  rw [settled, written_again hd ha, hreported]

theorem settled_child (ha : Accepted my c) :
    (settled my c ha).deployments.get (reported my c).deployKey =
      some ((mutated (reported my c) (base my c)).setDefaults latest) :=
  written_child ha

theorem settled_my (ha : Accepted my c) :
    (settled my c ha).mycrds.get (reported my c).key = some (reported my c) := by
  have hkey : (reported my c).key = my.key := rfl
  rw [settled_mycrds, hkey, if_pos rfl]

theorem accepted_again (ha : Accepted my c) : Accepted (reported my c) (settled my c ha) := by
  have hbase : base (reported my c) (settled my c ha) =
      (mutated (reported my c) (base my c)).setDefaults latest := base_some (settled_child ha)
  rw [Accepted, hbase, ← valid_setDefaults latest, mutated_again, valid_setDefaults]
  exact ha

/-- **Settled is settled**: another run finds nothing to change. -/
theorem settled_settled (ha : Accepted my c) (ha' : Accepted (reported my c) (settled my c ha)) :
    settled (reported my c) (settled my c ha) ha' = settled my c ha := by
  have hchild := settled_child ha
  have hstatus : (settled my c ha).putMyCRD (reported my c) = settled my c ha :=
    Cluster.putMyCRD_same (settled_my ha)
  exact (settled_again hchild ha').trans hstatus

/-- The custom resource in a cluster that failing runs left behind. -/
theorem partial_my (hmy : c.mycrds.get my.key = some my) (h : Partial my c c₁) {my₁ : MyCRD}
    (hmy₁ : c₁.mycrds.get my.key = some my₁) :
    c₁ = c ∧ my₁ = my ∨ ∃ ha : Accepted my c, c₁ = written my c ha ∧ my₁ = my ∨
      c₁ = settled my c ha ∧ my₁ = reported my c := by
  rcases h with rfl | ⟨ha, rfl | rfl⟩
  · exact Or.inl ⟨rfl, Option.some.inj (hmy₁.symm.trans hmy)⟩
  · exact Or.inr ⟨ha, Or.inl ⟨rfl, Option.some.inj (hmy₁.symm.trans hmy)⟩⟩
  · exact Or.inr ⟨ha, Or.inr ⟨rfl, Option.some.inj (hmy₁.symm.trans (settled_my ha))⟩⟩

theorem partial_stored (hmy : c.mycrds.get my.key = some my) (h : Partial my c c₁) :
    ∃ my₁, c₁.mycrds.get my.key = some my₁ := by
  rcases h with rfl | ⟨ha, rfl | rfl⟩
  · exact ⟨my, hmy⟩
  · exact ⟨my, hmy⟩
  · exact ⟨reported my c, settled_my ha⟩

/-- What storing the child and settling make of such a cluster. -/
theorem partial_next (hmy : c.mycrds.get my.key = some my) (h : Partial my c c₁) {my₁ : MyCRD}
    (hmy₁ : c₁.mycrds.get my.key = some my₁) (ha₁ : Accepted my₁ c₁) :
    (∃ ha : Accepted my c, settled my₁ c₁ ha₁ = settled my c ha) ∧
      Partial my c (written my₁ c₁ ha₁) := by
  rcases partial_my hmy h hmy₁ with ⟨rfl, rfl⟩ | ⟨ha, ⟨rfl, rfl⟩ | ⟨rfl, rfl⟩⟩
  · exact ⟨⟨ha₁, rfl⟩, Or.inr ⟨ha₁, Or.inl rfl⟩⟩
  · refine ⟨⟨ha, settled_again (written_child ha) ha₁⟩, Or.inr ⟨ha, Or.inl ?_⟩⟩
    exact written_again (written_child ha) ha₁
  · refine ⟨⟨ha, settled_settled ha ha₁⟩, Or.inr ⟨ha, Or.inr ?_⟩⟩
    exact written_again (settled_child ha) ha₁

/-- **Any number of runs, whichever calls fail**, leaves the cluster as it was, or with the child
    stored, or settled. -/
theorem partial_run (hmy : c.mycrds.get my.key = some my) (h : Partial my c c₁) {es r}
    (he : Exec (effect latest) (reconcile my.key) c₁ es r c₂) : Partial my c c₂ := by
  rcases exec_reconcile he with rfl | ⟨my₁, hmy₁, _, ha₁, rfl | rfl⟩
  · exact h
  · exact (partial_next hmy h hmy₁ ha₁).2
  · obtain ⟨ha, heq⟩ := (partial_next hmy h hmy₁ ha₁).1
    exact Or.inr ⟨ha, Or.inr heq⟩

/-- A run of `Reconcile` for `k`, whichever calls fail. -/
def Retry (k : Key) (c c' : Cluster latest) : Prop :=
  ∃ es r, Exec (effect latest) (reconcile k) c es r c'

theorem unclaimed_retries (h : Unclaimed k c) (hr : ReflTransGen (Retry k) c c₁) :
    Unclaimed k c₁ := by
  induction hr with
  | refl => exact h
  | tail _ hs ih =>
      obtain ⟨es, r, he⟩ := hs
      exact unclaimed_exec ih he

theorem partial_retries (hmy : c.mycrds.get my.key = some my)
    (h : ReflTransGen (Retry my.key) c c₁) : Partial my c c₁ := by
  induction h with
  | refl => exact Or.inl rfl
  | tail _ hs ih =>
      obtain ⟨es, r, he⟩ := hs
      exact partial_run hmy ih he

/-! ## 3. Convergence -/

/-- The child as `Reconcile` creates it. -/
def asCreated (latest : String → Bool) (my : MyCRD) : Deployment :=
  (mutated my (frame my)).setDefaults latest

/-- What is left of the Deployment `before` in `child`. -/
structure Kept (child before : Deployment) : Prop where
  selector : child.spec.selector = before.spec.selector
  annotations : child.metadata.annotations = before.metadata.annotations
  templateAnnotations : child.spec.template.annotations = before.spec.template.annotations
  /-- All fields of the specification but two. -/
  rest : { child.spec with replicas := before.spec.replicas, template := before.spec.template } =
    before.spec

/-- **What the specification of `my` asks of its child.** -/
structure Desired (my : MyCRD) (child : Deployment) : Prop where
  replicas : child.spec.replicas = some (my.spec.replicas.getD 1)
  container : ∃ app, child.spec.template.spec.containers = [app] ∧ app.name = "app" ∧
    app.image = (if my.spec.image = "" then "nginx:1.25.3" else my.spec.image) ∧
    app.ports.map (·.containerPort) = [80]
  templateLabels : child.spec.template.labels = labels my.name
  controller : getControllerOf child.metadata.ownerReferences = some my.owner.controllerRef

/-- **The cluster `c'` has converged for `my`**, when it was `c` before the runs. -/
structure Converged (my : MyCRD) (c c' : Cluster latest) : Prop where
  child : ∃ child, c'.deployments.get my.deployKey = some child ∧ Desired my child ∧
    Kept child ((c.deployments.get my.deployKey).getD (asCreated latest my)) ∧
    c'.mycrds.get my.key = some { my with status := ⟨child.status.availableReplicas⟩ }
  /-- The runs that failed make no difference. -/
  once : c' = reconciled my.key c
  /-- Another run changes nothing. -/
  again : reconciled my.key c' = c'

theorem desired_mutated (hf : foreign my d = false) :
    Desired my ((mutated my d).setDefaults latest) where
  replicas := rfl
  container := ⟨_, rfl, rfl, rfl, rfl⟩
  templateLabels := rfl
  controller := mutated_controller hf

theorem kept_mutated (c : Cluster latest) (my : MyCRD) :
    Kept ((mutated my (base my c)).setDefaults latest)
      ((c.deployments.get my.deployKey).getD (asCreated latest my)) := by
  cases hd : c.deployments.get my.deployKey with
  | none =>
      rw [base_none hd]
      exact ⟨rfl, rfl, rfl, rfl⟩
  | some d =>
      obtain ⟨_, hvalid, hdefault⟩ := c.deployments.keyed _ _ hd
      have hselector : some (d.spec.selector.getD ⟨labels my.name, []⟩) = d.spec.selector :=
        (mutated_selector hvalid : (mutated my d).spec.selector = _)
      have hrest : { (d.setDefaults latest).spec with
          replicas := d.spec.replicas, template := d.spec.template } = d.spec := by
        rw [hdefault]
      rw [base_some hd]
      refine ⟨hselector, rfl, rfl, Eq.trans ?_ hrest⟩
      simp only [Deployment.setDefaults, mutated, mutateSpec, hselector, Option.getD_some]

/-- A run in which no call fails settles the cluster. -/
theorem settles (hmy : c.mycrds.get k = some my) (hu : Unclaimed k c) {es r}
    (hrun : Exec (effect latest) (reconcile k) c es r c') (hok : ∀ e ∈ es, ¬ Fails e) :
    ∃ ha : Accepted my c, c' = settled my c ha := by
  have hgood : ∀ (op : ApiCall) (s : Cluster latest) (r : Answer op) (s' : Cluster latest),
      effect latest op s r s' → ¬ Fails ⟨op, r⟩ →
      r = (apply latest op s).1 ∧ s' = (apply latest op s).2 := by
    refine fun op s r s' h hf => h.of_not_fault fun hfail => ?_
    obtain ⟨m, rfl⟩ := hfail
    exact hf ⟨_, rfl, by simp⟩
  -- every call had its nominal answer, so the run is the one of `run_settled`
  have heq := hrun.eq_run hgood hok
  have hcluster : c' = reconciled k c := congrArg (·.2.2) heq
  have hf := unclaimed_base hu (c.mycrds.keyed k my hmy)
  by_cases ha : Accepted my c
  · exact ⟨ha, hcluster.trans (reconciled_settled hmy hf ha)⟩
  · obtain ⟨e, he, hres⟩ := (run_rejected hmy hf ha).2
    have hfails : Fails e := ⟨_, hres, by simp⟩
    rw [← heq] at he
    exact absurd hfails (hok e he)

/-- **Convergence**: from every cluster that can be reached, after any number of runs that fail
    anywhere, a run in which no call fails settles the custom resource and its child. -/
theorem converges (hc : Reachable my.key c) (hmy : c.mycrds.get my.key = some my)
    (hretries : ReflTransGen (Retry my.key) c c₁) {es r}
    (hrun : Exec (effect latest) (reconcile my.key) c₁ es r c₂) (hok : ∀ e ∈ es, ¬ Fails e) :
    Converged my c c₂ := by
  have hu := reachable_unclaimed hc
  have hpartial := partial_retries hmy hretries
  obtain ⟨my₁, hmy₁⟩ := partial_stored hmy hpartial
  obtain ⟨ha₁, rfl⟩ := settles hmy₁ (unclaimed_retries hu hretries) hrun hok
  obtain ⟨ha, heq⟩ := (partial_next hmy hpartial hmy₁ ha₁).1
  have hf := unclaimed_base hu rfl
  rw [heq]
  refine ⟨⟨_, written_child ha, desired_mutated hf, kept_mutated c my, settled_my ha⟩, ?_, ?_⟩
  · exact (reconciled_settled hmy hf ha).symm
  · have hf' : foreign (reported my c) (base (reported my c) (settled my c ha)) = false :=
      unclaimed_base (unclaimed_written rfl hf ha) rfl
    have ha' := accepted_again ha
    exact (reconciled_settled (settled_my ha) hf' ha').trans (settled_settled ha ha')

/-- A custom resource. -/
def demo : MyCRD := { name := "demo", ns := "default", uid := "1" }

/-- The cluster in which it was created. -/
def demoCluster : Cluster fun _ => false :=
  (⟨Keyed.empty, Keyed.empty⟩ : Cluster fun _ => false).putMyCRD demo

theorem demo_reachable : Reachable demo.key demoCluster :=
  ⟨⟨Keyed.empty, Keyed.empty⟩, fun _ _ _ h => (nomatch h), .single (.createMyCRD _ demo rfl)⟩

theorem demo_accepted : Accepted demo demoCluster :=
  (mutated_valid (by decide) (by decide) base_key).mpr
    ⟨by decide, fun _ h => (nomatch h), labels_selector demo.name⟩

/-- A run can fail at its first call. -/
theorem retry_timeout (k : Key) (c : Cluster latest) : Retry k c c := by
  refine ⟨[⟨.getMyCRD k, .error (.failed "timeout")⟩], .error (.api (.failed "timeout")), ?_⟩
  have hfault : effect latest (.getMyCRD k) c (.error (.failed "timeout")) c :=
    Faulty.refused _ ⟨_, rfl⟩
  rw [reconcile_call]
  exact .call hfault (.ret _ _)

/-- A run that fails, and one in which no call does. -/
theorem converges_demo : Converged demo demoCluster (reconciled demo.key demoCluster) := by
  have hf := unclaimed_base (reachable_unclaimed demo_reachable) rfl
  exact converges demo_reachable rfl (.single (retry_timeout _ _)) (exec_run (fun _ _ => .done) _ _)
    (run_settled rfl hf demo_accepted).2

end Operator
