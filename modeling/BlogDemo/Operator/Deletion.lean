/-
  File:      BlogDemo/Operator/Deletion.lean
  Subject:   DELETION IN THE FOREGROUND: the custom resource is marked, the garbage collector removes
             its child, and then the custom resource goes. `Reconcile` does not read the mark.

  * `LeavesDeployments`, `Idle`, **`leaves_iff`** -- when a run creates and updates no Deployment;
  * `Event`, `Step`, `Run` -- what happens around a deletion, the runs in any order;
  * **`deleted_stays`** -- a run keeps away from Deployments exactly when the custom resource is gone
    or another object controls its child, and where all runs do the child does not come back;
  * `recreated` -- a run for a marked custom resource, after which it is there again.
-/
import BlogDemo.Operator.Convergence

namespace Operator

open Atomic Kube

variable {latest : String → Bool} {c c' c₁ c₂ : Cluster latest} {my : MyCRD} {d : Deployment}
  {k : Key}

/-! ## 1. One run -/

/-- A run for `k` creates and updates no Deployment, whichever of its calls fail. -/
def LeavesDeployments (k : Key) (c : Cluster latest) : Prop :=
  ∀ c' es r, Exec (effect latest) (reconcile k) c es r c' →
    (∀ e ∈ es, e.op.writesDeployment = false) ∧ c'.deployments = c.deployments

/-- There is no custom resource under `k`, or another object controls its child. -/
def Idle (k : Key) (c : Cluster latest) : Prop :=
  ∀ my, c.mycrds.get k = some my →
    ∃ d, c.deployments.get my.deployKey = some d ∧ foreign my d = true

theorem idle_foreign (h : Idle k c) (hmy : c.mycrds.get k = some my) :
    foreign my (base my c) = true := by
  obtain ⟨d, hd, hf⟩ := h my hmy
  rw [base_some hd, hf]

/-- **When a run creates and updates no Deployment.** -/
theorem leaves_iff (k : Key) (c : Cluster latest) : LeavesDeployments k c ↔ Idle k c := by
  constructor
  · intro h my hmy
    have hrun := h _ _ _ (exec_run (fun _ _ => .done) (reconcile k) c)
    cases hf : foreign my (base my c) with
    | false =>
        obtain ⟨e, he, hw⟩ := run_writes hmy hf
        rw [hrun.1 e he] at hw
        cases hw
    | true =>
        cases hd : c.deployments.get my.deployKey with
        | none =>
            rw [base_none hd, frame_not_foreign] at hf
            cases hf
        | some d =>
            rw [base_some hd] at hf
            exact ⟨d, rfl, hf⟩
  · intro h c' es r he
    obtain ⟨rfl, hwrites, _⟩ := exec_idle he fun my hmy => idle_foreign h hmy
    exact ⟨hwrites, rfl⟩

/-! ## 2. Around a deletion -/

/-- The custom resource is gone, or marked for deletion. -/
def Deleted (k : Key) (c : Cluster latest) : Prop :=
  ∀ my, c.mycrds.get k = some my → my.deletionTimestamp ≠ none

/-- What happens while the custom resource under `k` is deleted in the foreground. -/
inductive Event where
  | delete (timestamp : String)
  | collect
  | finalize
  | reconcile (key : Key)

/-- **One event.** -/
inductive Step (k : Key) : Event → Cluster latest → Cluster latest → Prop where
  /-- The user deletes the custom resource, and the server marks it. -/
  | delete (c : Cluster latest) (my : MyCRD) (timestamp : String) (hk : my.key = k)
      (hmy : c.mycrds.get my.key = some my) :
      Step k (.delete timestamp) c (c.putMyCRD { my with deletionTimestamp := some timestamp })
  /-- The garbage collector removes the child of a marked custom resource. -/
  | collect (c : Cluster latest) (my : MyCRD) (d : Deployment) (hmy : c.mycrds.get k = some my)
      (hmark : my.deletionTimestamp ≠ none) (hd : c.deployments.get (childKey k) = some d)
      (howner : my.owner.controllerRef ∈ d.metadata.ownerReferences) :
      Step k .collect c { c with deployments := c.deployments.erase (childKey k) }
  /-- With its child gone, the custom resource goes. -/
  | finalize (c : Cluster latest) (my : MyCRD) (hmy : c.mycrds.get k = some my)
      (hmark : my.deletionTimestamp ≠ none) (hd : c.deployments.get (childKey k) = none) :
      Step k .finalize c { c with mycrds := c.mycrds.erase k }
  /-- A run for any custom resource, whichever of its calls fail. -/
  | reconcile (c c' : Cluster latest) (key : Key) (es : List (Made ApiCall Answer))
      (r : Except Err Unit) (h : Exec (effect latest) (reconcile key) c es r c') :
      Step k (.reconcile key) c c'

/-- Events one after the other, each of which meets `ok` in the cluster it finds. -/
inductive Run (k : Key) (ok : Event → Cluster latest → Prop) :
    Cluster latest → Cluster latest → Prop where
  | refl (c : Cluster latest) : Run k ok c c
  | step {c c₁ c₂ : Cluster latest} {ev : Event} (h : Run k ok c c₁) (hok : ok ev c₁)
      (hs : Step k ev c₁ c₂) : Run k ok c c₂

/-- **The child does not come back**: after it is collected it is absent in every cluster that a run
    reaches. -/
def StaysDeleted (latest : String → Bool) (k : Key) (ok : Event → Cluster latest → Prop) : Prop :=
  ∀ c c₁ c₂ : Cluster latest, Step k .collect c c₁ → Run k ok c₁ c₂ →
    c₂.deployments.get (childKey k) = none

/-- A run of `Reconcile` for `k` starts where it is idle. -/
def StartsIdle (k : Key) (ev : Event) (c : Cluster latest) : Prop := ev = .reconcile k → Idle k c

theorem absent_step {ev : Event} (hd : c.deployments.get (childKey k) = none)
    (hok : StartsIdle k ev c) (hs : Step k ev c c') : c'.deployments.get (childKey k) = none := by
  cases hs with
  | delete => exact hd
  | collect => exact Keyed.erase_get_self _
  | finalize => exact hd
  | reconcile _ _ key es r he =>
      by_cases hk : key = k
      · subst hk
        rw [((leaves_iff key c).mpr (hok rfl) c' es r he).2, hd]
      · rw [(exec_onlyOwn he).deployments _ fun h => hk (childKey_injective h).symm, hd]

theorem absent_run (hd : c.deployments.get (childKey k) = none) (h : Run k (StartsIdle k) c c') :
    c'.deployments.get (childKey k) = none := by
  induction h with
  | refl => exact hd
  | step _ hok hs ih => exact absent_step ih hok hs

/-- **Runs that start where the custom resource is gone** create and update no Deployment, and no
    others do; and where all do, a child that was collected does not come back. -/
theorem deleted_stays (latest : String → Bool) (k : Key) :
    (∀ c : Cluster latest, LeavesDeployments k c ↔ Idle k c) ∧
      StaysDeleted latest k (StartsIdle k) := by
  refine ⟨leaves_iff k, fun c c₁ c₂ hs hrun => absent_run ?_ hrun⟩
  cases hs with
  | collect => exact Keyed.erase_get_self _

/-! ## 3. The mark is not read -/

/-- A child that is missing is created, whether the custom resource is marked or not. -/
theorem child_created (hmy : c.mycrds.get k = some my) (hd : c.deployments.get (childKey k) = none)
    (ha : Accepted my c) : (reconciled k c).deployments.get (childKey k) ≠ none := by
  have hk : my.key = k := c.mycrds.keyed k my hmy
  subst hk
  have hf : foreign my (base my c) = false := by rw [base_none hd, frame_not_foreign]
  have hchild := written_child ha
  rw [reconciled_settled hmy hf ha]
  exact fun h => Option.some_ne_none _ (hchild.symm.trans h)

/-- The custom resource, marked. -/
def marked : MyCRD := { demo with deletionTimestamp := some "2025-01-01T00:00:00Z" }

/-- The custom resource with its child, and then the custom resource is marked. -/
def markedCluster : Cluster fun _ => false :=
  (written demo demoCluster demo_accepted).putMyCRD marked

/-- Then the child is collected. -/
def collectedCluster : Cluster fun _ => false :=
  { markedCluster with deployments := markedCluster.deployments.erase (childKey demo.key) }

theorem collected_step : Step demo.key .collect markedCluster collectedCluster :=
  .collect markedCluster marked ((mutated demo (frame demo)).setDefaults fun _ => false) rfl
    (by decide) (written_child demo_accepted) (List.mem_singleton_self _)

theorem collected_accepted : Accepted marked collectedCluster :=
  (mutated_valid (by decide) (by decide) base_key).mpr
    ⟨by decide, fun _ h => (nomatch h), labels_selector demo.name⟩

/-- **The child comes back**: the runs of `Reconcile` that its deletion triggers create it again, as
    long as the custom resource is there. -/
theorem recreated :
    (¬ ∀ c : Cluster fun _ => false, Deleted demo.key c → LeavesDeployments demo.key c) ∧
      ¬ StaysDeleted (fun _ => false) demo.key (fun _ _ => True) := by
  have hgone : collectedCluster.deployments.get (childKey demo.key) = none :=
    Keyed.erase_get_self _
  have hmarked : collectedCluster.mycrds.get demo.key = some marked := rfl
  have hback := child_created hmarked hgone collected_accepted
  constructor
  · intro h
    have hdeleted : Deleted demo.key collectedCluster := by
      intro my hmy
      cases hmy
      decide
    obtain ⟨d, hd, _⟩ := (leaves_iff _ _).mp (h _ hdeleted) marked hmarked
    exact absurd (hd.symm.trans hgone) (Option.some_ne_none d)
  · intro h
    have hrun : Step demo.key (.reconcile demo.key) collectedCluster
        (reconciled demo.key collectedCluster) :=
      .reconcile _ _ _ _ _ (exec_run (fun _ _ => .done) _ _)
    exact hback (h _ _ _ collected_step (.step (.refl _) trivial hrun))

end Operator
