/-
  File:      BlogDemo/Operator/Quiescence.lean
  Subject:   ANOTHER RUN OF `Reconcile` WHEN THERE IS NOTHING TO DO: the child is as an earlier run of
             the same specification left it, with the defaults of the server filled in.

  `mutate` rebuilds the pod specification without these defaults, so what it yields is never what
  is stored (`mutated_ne`), and `CreateOrUpdate` updates the Deployment.

  * `exec_ok` -- a run without an error has stored the child;
  * `UpToDate` -- nothing was edited since, and the status is up to date;
  * **`quiet_iff`** -- such a run writes nothing only if it ends at one of its two reads.
-/
import BlogDemo.Operator.Convergence

namespace Operator

open Atomic Kube

variable {latest : String → Bool} {c c' : Cluster latest} {my : MyCRD} {d : Deployment} {k : Key}
  {es : List (Made ApiCall Answer)}

/-! ## 1. What an earlier run has left -/

/-- **A run without an error** has stored the child. -/
theorem exec_ok (hmy : c.mycrds.get k = some my)
    (h : Exec (effect latest) (reconcile k) c es (.ok ()) c') :
    foreign my (base my c) = false ∧
      c'.deployments.get my.deployKey = some ((mutated my (base my c)).setDefaults latest) := by
  cases exec_reconcileRun h with
  | gone hmy' =>
      rw [hmy] at hmy'
      cases hmy'
  | @status my' _ _ _ _ _ _ hmy' hchild hstatus =>
      obtain rfl : my = my' := Option.some.inj (hmy.symm.trans hmy')
      obtain ⟨hf, ha, rfl, hwritten⟩ := child_written hmy hchild
      refine ⟨hf, ?_⟩
      rcases exec_status hwritten (written_child ha) hstatus with rfl | rfl
      · exact written_child ha
      · exact written_child ha

/-- **Nothing is to be done for `my`**: an earlier run of the same specification has returned no error,
    its child has not been edited since (its status is reported by others), and the status of `my`
    is up to date. -/
structure UpToDate (my : MyCRD) (c : Cluster latest) : Prop where
  stored : c.mycrds.get my.key = some my
  earlier : ∃ c₀ es₀ c₁ my₀ d status, Exec (effect latest) (reconcile my.key) c₀ es₀ (.ok ()) c₁ ∧
    c₀.mycrds.get my.key = some my₀ ∧ my₀.spec = my.spec ∧
    c₁.deployments.get my.deployKey = some d ∧
    c.deployments.get my.deployKey = some { d with status := status }
  status : ∀ d, c.deployments.get my.deployKey = some d →
    my.status.availableReplicas = d.status.availableReplicas

theorem UpToDate.not_foreign (h : UpToDate my c) : foreign my (base my c) = false := by
  obtain ⟨c₀, es₀, c₁, my₀, d, status, hrun, hmy₀, _, hd, hc⟩ := h.earlier
  have hkey : my₀.key = my.key := c₀.mycrds.keyed _ _ hmy₀
  have hdeploy : my₀.deployKey = my.deployKey := by
    rw [deployKey_key, deployKey_key, hkey]
  obtain ⟨hf, hchild⟩ := exec_ok hmy₀ hrun
  rw [hdeploy, hd, Option.some.injEq] at hchild
  rw [base_some hc, hchild, foreign_congr hkey.symm]
  exact mutated_not_foreign hf

/-! ## 2. The next run -/

def ApiCall.isWrite : ApiCall → Bool
  | .createDeployment _ => true
  | .updateDeployment _ => true
  | .updateStatus _ => true
  | _ => false

/-- The run issues no write. -/
def Quiet (es : List (Made ApiCall Answer)) : Prop := ∀ e ∈ es, e.op.isWrite = false

theorem isWrite_of_deployment {op : ApiCall} (h : op.writesDeployment = true) :
    op.isWrite = true := by
  cases op with
  | createDeployment d => rfl
  | updateDeployment d => rfl
  | getMyCRD k => cases h
  | getDeployment k => cases h
  | updateStatus my => cases h

/-- The run once the custom resource is read: the child is read, and if that succeeds it is written,
    for `mutate` never yields what is stored. -/
theorem quiet_child (hup : UpToDate my c) {c₁ : Cluster latest} {r : Except Err OperationResult}
    {m : Answer (.getMyCRD my.key)} (hm : ¬ Fails ⟨.getMyCRD my.key, m⟩)
    (h : ChildRun my c es r c₁) {es' : List (Made ApiCall Answer)}
    (hrest : ∀ e, r = .error e → es' = []) :
    Quiet (⟨.getMyCRD my.key, m⟩ :: (es ++ es')) ↔
      ∃ e ∈ (⟨.getMyCRD my.key, m⟩ :: (es ++ es') : List (Made ApiCall Answer)).take 2, Fails e := by
  cases h with
  | unread msg =>
      obtain rfl := hrest _ rfl
      refine iff_of_true (fun e he => ?_) ⟨_, List.mem_cons_of_mem _ List.mem_cons_self, _, rfl, by simp⟩
      rcases List.mem_cons.mp he with rfl | he
      · rfl
      · obtain rfl := List.mem_singleton.mp he
        rfl
  | refused hf e =>
      rw [hup.not_foreign] at hf
      cases hf
  | @wrote op _ _ _ r₂ _ _ hw _ =>
      -- both reads are answered: the third call writes the Deployment
      refine iff_of_false (fun hquiet => ?_) ?_
      · have hwrite := hquiet ⟨op, r₂⟩ (by simp)
        rw [isWrite_of_deployment hw.writes] at hwrite
        cases hwrite
      · intro h'
        obtain ⟨e, he, hfails⟩ := h'
        rcases List.mem_cons.mp he with rfl | he
        · exact hm hfails
        · obtain rfl := List.mem_singleton.mp he
          exact getDeployment_not_fails _ c hfails

/-- **The run issues no write if and only if** one of the two reads it begins with fails: once these
    are answered, the Deployment is updated, for `mutate` never yields what is stored. -/
theorem quiet_iff (hup : UpToDate my c) {r : Except Err Unit}
    (h : Exec (effect latest) (reconcile my.key) c es r c') :
    Quiet es ↔ ∃ e ∈ es.take 2, Fails e := by
  cases exec_reconcileRun h with
  | unread m =>
      refine iff_of_true (fun e he => ?_) ⟨_, List.mem_cons_self, _, rfl, by simp⟩
      obtain rfl := List.mem_singleton.mp he
      rfl
  | gone hmy =>
      rw [hup.stored] at hmy
      cases hmy
  | @child my' es _ _ hmy hchild =>
      obtain rfl : my = my' := Option.some.inj (hup.stored.symm.trans hmy)
      rw [← List.append_nil es]
      exact quiet_child hup (ok_not_fails rfl) (exec_childRun hchild) fun _ _ => rfl
  | @status my' _ _ _ _ _ _ hmy hchild hstatus =>
      obtain rfl : my = my' := Option.some.inj (hup.stored.symm.trans hmy)
      refine quiet_child hup (ok_not_fails rfl) (exec_childRun hchild) fun e he => ?_
      cases he

/-! ## 3. The demo -/

/-- The demo, once a run has settled it. -/
theorem demo_upToDate : UpToDate demo (reconciled demo.key demoCluster) := by
  have hf := unclaimed_base (reachable_unclaimed demo_reachable) rfl
  have hsettled : reconciled demo.key demoCluster = settled demo demoCluster demo_accepted :=
    reconciled_settled rfl hf demo_accepted
  obtain ⟨hrun, _⟩ := run_settled (k := demo.key) rfl hf demo_accepted
  have hexec := exec_run (E := effect fun _ => false) (fun _ _ => .done) (reconcile demo.key)
    demoCluster
  rw [hrun] at hexec
  have hchild : (settled demo demoCluster demo_accepted).deployments.get demo.deployKey =
      some ((mutated demo (base demo demoCluster)).setDefaults fun _ => false) := settled_child _
  rw [hsettled]
  refine ⟨settled_my demo_accepted, ?_, fun d hd => ?_⟩
  · exact ⟨demoCluster, _, _, demo, _, _, hexec, rfl, rfl, hchild, hchild⟩
  · rw [hchild] at hd
    cases hd
    rfl

/-- Another run for the demo. -/
def secondRun : List (Made ApiCall Answer) :=
  ((reconcile demo.key).run (apply fun _ => false) (reconciled demo.key demoCluster)).1

theorem quiet_iff_demo : Quiet secondRun ↔ ∃ e ∈ secondRun.take 2, Fails e :=
  quiet_iff demo_upToDate (exec_run (fun _ _ => .done) _ _)

/-- **It updates the Deployment**, although no call fails and nothing is to be done. -/
theorem demo_not_quiet : UpToDate demo (reconciled demo.key demoCluster) ∧
    (∀ e ∈ secondRun, ¬ Fails e) ∧ ¬ Quiet secondRun := by
  have hf := unclaimed_base (reachable_unclaimed demo_reachable) rfl
  have hsettled := reconciled_settled (k := demo.key) rfl hf demo_accepted
  have hmy : (reconciled demo.key demoCluster).mycrds.get demo.key = some demo := demo_upToDate.stored
  have hf' := demo_upToDate.not_foreign
  have ha : Accepted demo (reconciled demo.key demoCluster) := by
    rw [hsettled]
    exact accepted_again demo_accepted
  refine ⟨demo_upToDate, (run_settled hmy hf' ha).2, fun hquiet => ?_⟩
  obtain ⟨e, he, hwrite⟩ := run_writes hmy hf'
  have hno := hquiet e he
  rw [isWrite_of_deployment hwrite] at hno
  cases hno

end Operator
