/-
  File:      BlogDemo/Operator/Runs.lean
  Subject:   WHAT A RUN OF `Reconcile` DOES TO THE CLUSTER, with and without failures of its calls.

  * `written`, `settled` -- the cluster once the child is stored, and once the status is too;
  * `ReconcileRun`, `ChildRun`, `StatusRun` -- the ways a run and each of its halves can go, call by
    call; every run is one of them (`exec_reconcileRun`, `exec_childRun`, `exec_statusRun`);
  * **`exec_reconcile`** -- whichever calls fail, a run leaves the cluster as it was, or with the
    child stored, or settled;
  * **`run_settled`**, `run_rejected` -- the run in which no call fails: it settles the cluster, or
    the server rejects the child;
  * `exec_idle` -- a run that must not touch the child makes no write.
-/
import BlogDemo.Operator.Child

namespace Operator

open Atomic Kube
open Prog (send Issues)

variable {latest : String → Bool} {c c' : Cluster latest} {my : MyCRD} {d : Deployment} {k : Key}

/-! ## 1. The cluster after a run -/

/-- The Deployment `mutate` is applied to. -/
def base (my : MyCRD) (c : Cluster latest) : Deployment :=
  (c.deployments.get my.deployKey).getD (frame my)

/-- What `mutate` makes of it is acceptable. -/
abbrev Accepted (my : MyCRD) (c : Cluster latest) : Prop := (mutated my (base my c)).valid = true

/-- The child is stored. -/
def written (my : MyCRD) (c : Cluster latest) (h : Accepted my c) : Cluster latest :=
  c.putDeployment (mutated my (base my c)) h

/-- The custom resource, once its status says how many replicas the child has. -/
def reported (my : MyCRD) (c : Cluster latest) : MyCRD :=
  { my with status := ⟨(base my c).status.availableReplicas⟩ }

/-- The child is stored, and the status is written. -/
def settled (my : MyCRD) (c : Cluster latest) (h : Accepted my c) : Cluster latest :=
  (written my c h).putMyCRD (reported my c)

theorem base_some (h : c.deployments.get my.deployKey = some d) : base my c = d := by
  rw [base, h, Option.getD_some]

theorem base_none (h : c.deployments.get my.deployKey = none) : base my c = frame my := by
  rw [base, h, Option.getD_none]

theorem base_key : (base my c).key = my.deployKey := by
  unfold base
  cases h : c.deployments.get my.deployKey with
  | none => rfl
  | some d => exact (c.deployments.keyed _ _ h).1

theorem written_child (h : Accepted my c) : (written my c h).deployments.get my.deployKey =
    some ((mutated my (base my c)).setDefaults latest) := by
  rw [written, Cluster.putDeployment_get, mutated_key, base_key, if_pos rfl]

theorem written_mycrds (h : Accepted my c) : (written my c h).mycrds = c.mycrds := rfl

theorem settled_mycrds (h : Accepted my c) (k : Key) : (settled my c h).mycrds.get k =
    if k = my.key then some (reported my c) else c.mycrds.get k :=
  Cluster.putMyCRD_get k

/-! ## 2. The calls -/

theorem getMyCRD_same (k : Key) (c : Cluster latest) : (apply latest (.getMyCRD k) c).2 = c := by
  simp only [apply]
  split <;> rfl

theorem getDeployment_same (k : Key) (c : Cluster latest) :
    (apply latest (.getDeployment k) c).2 = c := by
  simp only [apply]
  split <;> rfl

theorem effect_getMyCRD {r : Answer (.getMyCRD k)} (h : effect latest (.getMyCRD k) c r c') :
    c' = c ∧ (r = (apply latest (.getMyCRD k) c).1 ∨ ∃ m, r = .error (.failed m)) := by
  rcases h.answer with ⟨hr, rfl⟩ | ⟨hc, m, rfl⟩
  · exact ⟨getMyCRD_same k c, Or.inl hr⟩
  · exact ⟨hc.elim id (·.trans (getMyCRD_same k c)), Or.inr ⟨m, rfl⟩⟩

theorem effect_getDeployment {r : Answer (.getDeployment k)}
    (h : effect latest (.getDeployment k) c r c') :
    c' = c ∧ (r = (apply latest (.getDeployment k) c).1 ∨ ∃ m, r = .error (.failed m)) := by
  rcases h.answer with ⟨hr, rfl⟩ | ⟨hc, m, rfl⟩
  · exact ⟨getDeployment_same k c, Or.inl hr⟩
  · exact ⟨hc.elim id (·.trans (getDeployment_same k c)), Or.inr ⟨m, rfl⟩⟩

theorem getDeployment_not_fails (k : Key) (c : Cluster latest) :
    ¬ Fails ⟨.getDeployment k, (apply latest (.getDeployment k) c).1⟩ := by
  simp only [apply]
  split
  · exact ok_not_fails rfl
  · exact notFound_not_fails rfl

theorem apply_getMyCRD (h : c.mycrds.get k = some my) :
    apply latest (.getMyCRD k) c = (.ok ⟨my, c.mycrds.keyed k my h⟩, c) := by
  simp only [apply, Keyed.find_some h]

theorem apply_getMyCRD_none (h : c.mycrds.get k = none) :
    apply latest (.getMyCRD k) c = (.error .notFound, c) := by
  simp only [apply, Keyed.find_none h]

theorem apply_getDeployment (h : c.deployments.get k = some d) :
    apply latest (.getDeployment k) c = (.ok ⟨d, (c.deployments.keyed k d h).1⟩, c) := by
  simp only [apply, Keyed.find_some h]

theorem apply_getDeployment_none (h : c.deployments.get k = none) :
    apply latest (.getDeployment k) c = (.error .notFound, c) := by
  simp only [apply, Keyed.find_none h]

/-- Creating the child. -/
theorem apply_create (h : c.deployments.get my.deployKey = none) :
    apply latest (.createDeployment (mutated my (frame my))) c =
      if ha : Accepted my c then (.ok (), written my c ha) else (.error .invalid, c) := by
  have hkey : (mutated my (frame my)).key = my.deployKey := rfl
  simp only [apply, Accepted, written, base_none h, hkey, h]
  rfl

/-- Updating the child. -/
theorem apply_update (h : c.deployments.get my.deployKey = some d) :
    apply latest (.updateDeployment (mutated my d)) c =
      if ha : Accepted my c then (.ok (), written my c ha) else (.error .invalid, c) := by
  obtain ⟨hkey, hvalid, _⟩ := c.deployments.keyed _ _ h
  have hselector : (mutated my d).spec.selector = d.spec.selector := mutated_selector hvalid
  simp only [apply, Accepted, written, base_some h, mutated_key, hkey, h, hselector, and_true]
  rfl

theorem apply_updateStatus (h : c.mycrds.get my.key = some my) (status : MyCRDStatus) :
    apply latest (.updateStatus { my with status := status }) c =
      (.ok (), c.putMyCRD { my with status := status }) := by
  have hkey : ({ my with status := status } : MyCRD).key = my.key := rfl
  simp only [apply, hkey, h]

/-! ## 3. The run in which no call fails -/

/-- `createOrUpdate`, as `Reconcile` calls it. -/
abbrev reconcileChild (my : MyCRD) : Program (Except Err OperationResult) :=
  createOrUpdate deployments (frame my) (mutate my)

theorem mutateWith_ok (hd : d.key = my.deployKey) (hf : foreign my d = false) :
    mutateWith Deployment.key (mutate my) my.deployKey d = .ok (mutated my d) := by
  unfold mutateWith
  rw [mutate_ok hd hf]
  simp only [mutated_key, hd, if_true]

theorem mutateWith_refused (hf : foreign my d = true) :
    ∃ e, mutateWith Deployment.key (mutate my) my.deployKey d = .error e := by
  obtain ⟨e, he⟩ := mutate_refused hf
  exact ⟨e, by rw [mutateWith, he]⟩

/-- What follows the first read of the child. -/
abbrev afterRead (my : MyCRD) : Answer (.getDeployment my.deployKey) →
    Program (Except Err OperationResult) :=
  createOrUpdateRead deployments (mutate my) my.deployKey (frame my)

/-- What the answer to a write is reported as. -/
def report (result : OperationResult) : Except ApiError Unit → Except Err OperationResult
  | .error e => .error (.api e)
  | .ok _ => .ok result

theorem reconcileChild_call :
    reconcileChild my = .call (.getDeployment my.deployKey) (afterRead my) := rfl

/-- **The write of the child**: one call, which the server accepts when the child is acceptable, and
    what is made of its answer. -/
structure IsWrite (my : MyCRD) (c : Cluster latest) (op : ApiCall) (x : Content op)
    (result : OperationResult) (answer : Answer op → Except Err OperationResult) : Prop where
  writes : op.writesDeployment = true
  applied : apply latest op c =
    if ha : Accepted my c then (.ok x, written my c ha) else (.error .invalid, c)
  ok : answer (.ok x) = .ok result
  error : ∀ e, answer (.error e) = .error (.api e)

/-- Once the child was read: another object is its controller, or it is written. -/
theorem afterRead_cases (my : MyCRD) (c : Cluster latest) :
    (foreign my (base my c) = true ∧ ∃ e,
      afterRead my (apply latest (.getDeployment my.deployKey) c).1 = .ret (.error e)) ∨
    (foreign my (base my c) = false ∧ ∃ op x result answer, IsWrite my c op x result answer ∧
      afterRead my (apply latest (.getDeployment my.deployKey) c).1 =
        .call op fun r => .ret (answer r)) := by
  cases hd : c.deployments.get my.deployKey with
  | none =>
      rw [apply_getDeployment_none hd, base_none hd]
      refine Or.inr ⟨frame_not_foreign, .createDeployment (mutated my (frame my)), (), .created,
        report .created, ⟨rfl, apply_create hd, rfl, fun _ => rfl⟩, ?_⟩
      have hmutate := mutateWith_ok (d := frame my) rfl frame_not_foreign
      simp only [afterRead, createOrUpdateRead, hmutate]
      refine congrArg (Prog.call _) (funext fun r => ?_)
      cases r <;> rfl
  | some d =>
      obtain ⟨hkey, _, hdefault⟩ := c.deployments.keyed _ _ hd
      rw [apply_getDeployment hd, base_some hd]
      cases hf : foreign my d with
      | true =>
          obtain ⟨e, he⟩ := mutateWith_refused hf
          refine Or.inl ⟨rfl, e, ?_⟩
          simp only [afterRead, createOrUpdateRead, he]
          rfl
      | false =>
          refine Or.inr ⟨rfl, .updateDeployment (mutated my d), (), .updated,
            report .updated, ⟨rfl, apply_update hd, rfl, fun _ => rfl⟩, ?_⟩
          have hmutate := mutateWith_ok hkey hf
          simp only [afterRead, createOrUpdateRead, hmutate, if_neg (mutated_ne hdefault)]
          refine congrArg (Prog.call _) (funext fun r => ?_)
          cases r <;> rfl

/-- **The child is stored.** -/
theorem run_child (hf : foreign my (base my c) = false) (h : Accepted my c) :
    ∃ es result, (reconcileChild my).run (apply latest) c = (es, .ok result, written my c h) ∧
      (∀ e ∈ es, ¬ Fails e) ∧ ∃ e ∈ es, e.op.writesDeployment = true := by
  rcases afterRead_cases my c with ⟨hf', _⟩ | ⟨_, op, x, result, answer, hw, hcall⟩
  · rw [hf] at hf'
    cases hf'
  · have happlied := hw.applied
    rw [dif_pos h] at happlied
    rw [reconcileChild_call, Prog.run_call, getDeployment_same, hcall, Prog.run_call, happlied]
    refine ⟨_, result, by rw [Prog.run_ret, hw.ok], ?_, ⟨op, .ok x⟩, ?_, hw.writes⟩
    · intro e he
      rcases List.mem_cons.mp he with rfl | he
      · exact getDeployment_not_fails _ c
      · cases List.mem_singleton.mp he
        exact ok_not_fails rfl
    · exact List.mem_cons_of_mem _ List.mem_cons_self

/-- The server rejects the child. -/
theorem run_child_rejected (hf : foreign my (base my c) = false) (h : ¬ Accepted my c) :
    ∃ es op, (reconcileChild my).run (apply latest) c =
      (es ++ [⟨op, .error .invalid⟩], .error (.api .invalid), c) ∧ op.writesDeployment = true := by
  rcases afterRead_cases my c with ⟨hf', _⟩ | ⟨_, op, x, result, answer, hw, hcall⟩
  · rw [hf] at hf'
    cases hf'
  · have happlied := hw.applied
    rw [dif_neg h] at happlied
    rw [reconcileChild_call, Prog.run_call, getDeployment_same, hcall, Prog.run_call, happlied]
    exact ⟨[_], op, by rw [Prog.run_ret, hw.error]; rfl, hw.writes⟩

/-- A status that is up to date is as it would be written. -/
theorem putMyCRD_upToDate (hmy : c.mycrds.get my.key = some my)
    (heq : my.status.availableReplicas = d.status.availableReplicas) :
    c.putMyCRD { my with status := ⟨d.status.availableReplicas⟩ } = c := by
  have hsame : ({ my with status := ⟨d.status.availableReplicas⟩ } : MyCRD) = my := by
    rw [← heq]
  rw [hsame, Cluster.putMyCRD_same hmy]

/-- The status is the child's. -/
theorem run_status (hmy : c.mycrds.get my.key = some my)
    (hd : c.deployments.get my.deployKey = some d) : ∃ es, (reconcileStatus my).run (apply latest) c =
      (es, .ok (), c.putMyCRD { my with status := ⟨d.status.availableReplicas⟩ }) ∧
        ∀ e ∈ es, ¬ Fails e := by
  unfold reconcileStatus
  rw [Prog.send_bind, Prog.run_call, apply_getDeployment hd]
  dsimp only
  split
  · rw [Prog.send_bind, Prog.run_call, apply_updateStatus hmy]
    exact ⟨_, rfl, by simp [ok_not_fails]⟩
  · rename_i heq
    rw [putMyCRD_upToDate hmy (not_not.mp heq)]
    exact ⟨_, rfl, by simp [ok_not_fails]⟩

/-- What follows the first read. -/
theorem reconcile_call : reconcile k = .call (.getMyCRD k) fun r => match r with
    | .error .notFound => .ret (.ok ())
    | .error e => .ret (.error (.api e))
    | .ok my => reconcileMyCRD my.1 := by
  refine congrArg (Prog.call (ApiCall.getMyCRD k)) (funext fun r => ?_)
  cases r with
  | ok my => rfl
  | error e => cases e <;> rfl

/-- The cluster after a run in which no call fails. -/
def reconciled (k : Key) (c : Cluster latest) : Cluster latest :=
  ((reconcile k).run (apply latest) c).2.2

theorem run_reconcile (hmy : c.mycrds.get k = some my) : (reconcile k).run (apply latest) c =
    (⟨.getMyCRD k, .ok ⟨my, c.mycrds.keyed k my hmy⟩⟩ ::
      ((reconcileMyCRD my).run (apply latest) c).1, ((reconcileMyCRD my).run (apply latest) c).2) := by
  rw [reconcile_call, Prog.run_call, apply_getMyCRD hmy]

/-- **A run in which no call fails settles the cluster.** -/
theorem run_settled (hmy : c.mycrds.get k = some my) (hf : foreign my (base my c) = false)
    (h : Accepted my c) : ((reconcile k).run (apply latest) c).2 = (.ok (), settled my c h) ∧
      ∀ e ∈ ((reconcile k).run (apply latest) c).1, ¬ Fails e := by
  have hkey : my.key = k := c.mycrds.keyed k my hmy
  obtain ⟨es, result, hchild, hes, _⟩ := run_child hf h
  obtain ⟨es', hstatus, hes'⟩ := run_status (c := written my c h) (hkey ▸ hmy) (written_child h)
  rw [run_reconcile hmy]
  dsimp only
  rw [reconcileMyCRD, Prog.run_bind, hchild]
  dsimp only
  rw [hstatus]
  refine ⟨rfl, fun e he => ?_⟩
  rcases List.mem_cons.mp he with rfl | he
  · exact ok_not_fails rfl
  · exact (List.mem_append.mp he).elim (hes e) (hes' e)

theorem reconciled_settled (hmy : c.mycrds.get k = some my) (hf : foreign my (base my c) = false)
    (h : Accepted my c) : reconciled k c = settled my c h := by
  have hrun := (run_settled hmy hf h).1
  rw [reconciled, hrun]

/-- Unless the child is rejected: then the cluster is as it was, and so is the next run. -/
theorem run_rejected (hmy : c.mycrds.get k = some my) (hf : foreign my (base my c) = false)
    (h : ¬ Accepted my c) : ((reconcile k).run (apply latest) c).2 = (.error (.api .invalid), c) ∧
      ∃ e ∈ ((reconcile k).run (apply latest) c).1, e.res = .error .invalid := by
  obtain ⟨es, op, hchild, _⟩ := run_child_rejected hf h
  rw [run_reconcile hmy]
  dsimp only
  rw [reconcileMyCRD, Prog.run_bind, hchild]
  refine ⟨rfl, ⟨op, .error .invalid⟩, ?_, rfl⟩
  simp

/-- A child that is not another's is written, or the server is asked to. -/
theorem run_writes (hmy : c.mycrds.get k = some my) (hf : foreign my (base my c) = false) :
    ∃ e ∈ ((reconcile k).run (apply latest) c).1, e.op.writesDeployment = true := by
  have hwrite : ∃ e ∈ ((reconcileChild my).run (apply latest) c).1,
      e.op.writesDeployment = true := by
    by_cases h : Accepted my c
    · obtain ⟨es, result, hchild, _, hwrite⟩ := run_child hf h
      rw [hchild]
      exact hwrite
    · obtain ⟨es, op, hchild, hop⟩ := run_child_rejected hf h
      rw [hchild]
      exact ⟨⟨op, .error .invalid⟩, by simp, hop⟩
  obtain ⟨e, he, hop⟩ := hwrite
  rw [run_reconcile hmy]
  refine ⟨e, List.mem_cons_of_mem _ ?_, hop⟩
  rw [reconcileMyCRD, Prog.run_bind]
  exact List.mem_append_left _ he

/-! ## 4. Runs in which calls fail -/

variable {es : List (Made ApiCall Answer)}

/-- A write that fails may still have been made. -/
theorem isWrite_cases {op : ApiCall} {x : Content op} {result : OperationResult}
    {answer : Answer op → Except Err OperationResult} (hw : IsWrite my c op x result answer)
    {r : Answer op} (h : effect latest op c r c') :
    c' = c ∧ (∃ e, answer r = .error e) ∨ ∃ ha : Accepted my c, c' = written my c ha := by
  have happlied := hw.applied
  have hfailed : ∀ m, ∃ e, answer (.error (.failed m)) = .error e := fun m => ⟨_, hw.error _⟩
  by_cases ha : Accepted my c
  · rw [dif_pos ha] at happlied
    rcases h.answer with ⟨rfl, rfl⟩ | ⟨rfl | rfl, m, rfl⟩
    · exact Or.inr ⟨ha, by rw [happlied]⟩
    · exact Or.inl ⟨rfl, hfailed m⟩
    · exact Or.inr ⟨ha, by rw [happlied]⟩
  · rw [dif_neg ha] at happlied
    refine Or.inl ?_
    rcases h.answer with ⟨rfl, rfl⟩ | ⟨rfl | rfl, m, rfl⟩
    · rw [happlied]
      exact ⟨rfl, _, hw.error _⟩
    · exact ⟨rfl, hfailed m⟩
    · exact ⟨by rw [happlied], hfailed m⟩

/-- **The ways of the first half**: the child cannot be read, or is another's, or is written. -/
inductive ChildRun (my : MyCRD) (c : Cluster latest) :
    List (Made ApiCall Answer) → Except Err OperationResult → Cluster latest → Prop where
  | unread (m : String) :
      ChildRun my c [⟨.getDeployment my.deployKey, .error (.failed m)⟩]
        (.error (.api (.failed m))) c
  | refused (hf : foreign my (base my c) = true) (e : Err) :
      ChildRun my c
        [⟨.getDeployment my.deployKey, (apply latest (.getDeployment my.deployKey) c).1⟩]
        (.error e) c
  | wrote {op : ApiCall} {x : Content op} {result : OperationResult}
      {answer : Answer op → Except Err OperationResult} {r : Answer op} {c' : Cluster latest}
      (hf : foreign my (base my c) = false) (hw : IsWrite my c op x result answer)
      (h : effect latest op c r c') :
      ChildRun my c
        [⟨.getDeployment my.deployKey, (apply latest (.getDeployment my.deployKey) c).1⟩, ⟨op, r⟩]
        (answer r) c'

theorem exec_childRun {r : Except Err OperationResult}
    (h : Exec (effect latest) (reconcileChild my) c es r c') : ChildRun my c es r c' := by
  rw [reconcileChild_call] at h
  obtain ⟨r₁, c₁, es', rfl, he, hn⟩ := exec_call h
  obtain ⟨rfl, rfl | ⟨m, rfl⟩⟩ := effect_getDeployment he
  · rcases afterRead_cases my c₁ with ⟨hf, e, hret⟩ | ⟨hf, op, x, result, answer, hw, hcall⟩
    · rw [hret] at hn
      obtain ⟨rfl, rfl, rfl⟩ := exec_ret hn
      exact .refused hf e
    · rw [hcall] at hn
      obtain ⟨r₂, c₂, _, rfl, hwrite, hn'⟩ := exec_call hn
      obtain ⟨rfl, rfl, rfl⟩ := exec_ret hn'
      exact .wrote hf hw hwrite
  · obtain ⟨rfl, rfl, rfl⟩ := exec_ret hn
    exact .unread m

/-- Only an error leaves the child unwritten. -/
theorem exec_child {r : Except Err OperationResult}
    (h : Exec (effect latest) (reconcileChild my) c es r c') :
    c' = c ∧ (∃ e, r = .error e) ∨
      foreign my (base my c) = false ∧ ∃ ha : Accepted my c, c' = written my c ha := by
  cases exec_childRun h with
  | unread m => exact Or.inl ⟨rfl, _, rfl⟩
  | refused hf e => exact Or.inl ⟨rfl, e, rfl⟩
  | wrote hf hw hwrite =>
      exact (isWrite_cases hw hwrite).imp id fun hwritten => ⟨hf, hwritten⟩

/-- **The ways of the status half**: the child cannot be read, or nothing has changed, or the status is
    sent; a failure may still have stored it. -/
inductive StatusRun (my : MyCRD) (d : Deployment) (c : Cluster latest) :
    List (Made ApiCall Answer) → Except Err Unit → Cluster latest → Prop where
  | unread (m : String) :
      StatusRun my d c [⟨.getDeployment my.deployKey, .error (.failed m)⟩] (.ok ()) c
  | same (hkey : d.key = my.deployKey)
      (heq : my.status.availableReplicas = d.status.availableReplicas) :
      StatusRun my d c [⟨.getDeployment my.deployKey, .ok ⟨d, hkey⟩⟩] (.ok ()) c
  | failed (hkey : d.key = my.deployKey) (e : ApiError) {c' : Cluster latest}
      (hc : c' = c ∨ c' = c.putMyCRD { my with status := ⟨d.status.availableReplicas⟩ }) :
      StatusRun my d c [⟨.getDeployment my.deployKey, .ok ⟨d, hkey⟩⟩,
        ⟨.updateStatus { my with status := ⟨d.status.availableReplicas⟩ }, .error e⟩]
        (.error (.api e)) c'
  | wrote (hkey : d.key = my.deployKey) :
      StatusRun my d c [⟨.getDeployment my.deployKey, .ok ⟨d, hkey⟩⟩,
        ⟨.updateStatus { my with status := ⟨d.status.availableReplicas⟩ }, .ok ()⟩]
        (.ok ()) (c.putMyCRD { my with status := ⟨d.status.availableReplicas⟩ })

theorem exec_statusRun {r : Except Err Unit} (hmy : c.mycrds.get my.key = some my)
    (hd : c.deployments.get my.deployKey = some d)
    (h : Exec (effect latest) (reconcileStatus my) c es r c') : StatusRun my d c es r c' := by
  unfold reconcileStatus at h
  rw [Prog.send_bind] at h
  obtain ⟨r₁, c₁, es', rfl, he, hn⟩ := exec_call h
  obtain ⟨rfl, rfl | ⟨m, rfl⟩⟩ := effect_getDeployment he
  · rw [apply_getDeployment hd] at hn ⊢
    dsimp only at hn
    split at hn
    · rw [Prog.send_bind] at hn
      obtain ⟨r₂, c₂, es₂, rfl, hw, hw'⟩ := exec_call hn
      cases r₂ with
      | error e =>
          obtain ⟨rfl, rfl, rfl⟩ := exec_ret hw'
          refine .failed _ e (hw.state.imp id fun hstate => ?_)
          rw [hstate, apply_updateStatus hmy]
      | ok x =>
          obtain ⟨rfl, rfl, rfl⟩ := exec_ret hw'
          -- the write was answered, so it took place
          obtain ⟨_, hstate⟩ := hw.of_not_fault (by rintro ⟨m, hm⟩; cases hm)
          rw [hstate, apply_updateStatus hmy]
          exact .wrote _
    · rename_i heq
      obtain ⟨rfl, rfl, rfl⟩ := exec_ret hn
      exact .same _ (not_not.mp heq)
  · obtain ⟨rfl, rfl, rfl⟩ := exec_ret hn
    exact .unread m

/-- The status is written, or not. -/
theorem exec_status {r : Except Err Unit} (hmy : c.mycrds.get my.key = some my)
    (hd : c.deployments.get my.deployKey = some d)
    (h : Exec (effect latest) (reconcileStatus my) c es r c') :
    c' = c ∨ c' = c.putMyCRD { my with status := ⟨d.status.availableReplicas⟩ } := by
  cases exec_statusRun hmy hd h with
  | unread m => exact Or.inl rfl
  | same hkey heq => exact Or.inl rfl
  | failed hkey e hc => exact hc
  | wrote hkey => exact Or.inr rfl

/-- **The ways of a run**: the custom resource cannot be read, or is gone, or the child's half ends
    with an error, or the status follows. -/
inductive ReconcileRun (k : Key) (c : Cluster latest) :
    List (Made ApiCall Answer) → Except Err Unit → Cluster latest → Prop where
  | unread (m : String) :
      ReconcileRun k c [⟨.getMyCRD k, .error (.failed m)⟩] (.error (.api (.failed m))) c
  | gone (hmy : c.mycrds.get k = none) :
      ReconcileRun k c [⟨.getMyCRD k, .error .notFound⟩] (.ok ()) c
  | child {my : MyCRD} {es : List (Made ApiCall Answer)} {e : Err} {c' : Cluster latest}
      (hmy : c.mycrds.get k = some my)
      (hchild : Exec (effect latest) (reconcileChild my) c es (.error e) c') :
      ReconcileRun k c (⟨.getMyCRD k, .ok ⟨my, c.mycrds.keyed k my hmy⟩⟩ :: es) (.error e) c'
  | status {my : MyCRD} {es es' : List (Made ApiCall Answer)} {x : OperationResult}
      {r : Except Err Unit} {c₁ c' : Cluster latest} (hmy : c.mycrds.get k = some my)
      (hchild : Exec (effect latest) (reconcileChild my) c es (.ok x) c₁)
      (hstatus : Exec (effect latest) (reconcileStatus my) c₁ es' r c') :
      ReconcileRun k c (⟨.getMyCRD k, .ok ⟨my, c.mycrds.keyed k my hmy⟩⟩ :: (es ++ es')) r c'

theorem exec_reconcileRun {r : Except Err Unit}
    (h : Exec (effect latest) (reconcile k) c es r c') : ReconcileRun k c es r c' := by
  rw [reconcile_call] at h
  obtain ⟨r₁, c₁, es', rfl, he, hn⟩ := exec_call h
  obtain ⟨rfl, rfl | ⟨m, rfl⟩⟩ := effect_getMyCRD he
  · cases hmy : c₁.mycrds.get k with
    | none =>
        rw [apply_getMyCRD_none hmy] at hn ⊢
        obtain ⟨rfl, rfl, rfl⟩ := exec_ret hn
        exact .gone hmy
    | some my =>
        rw [apply_getMyCRD hmy] at hn ⊢
        obtain ⟨es₁, r₂, c₂, es₂, rfl, hchild, hrest⟩ := exec_bind hn
        cases r₂ with
        | error e =>
            obtain ⟨rfl, rfl, rfl⟩ := exec_ret hrest
            rw [List.append_nil]
            exact .child hmy hchild
        | ok x => exact .status hmy hchild hrest
  · obtain ⟨rfl, rfl, rfl⟩ := exec_ret hn
    exact .unread m

/-- What the status half starts from: the child is stored, and `my` as it was. -/
theorem child_written {x : OperationResult} (hmy : c.mycrds.get k = some my)
    (h : Exec (effect latest) (reconcileChild my) c es (.ok x) c') :
    foreign my (base my c) = false ∧ ∃ ha : Accepted my c, c' = written my c ha ∧
      c'.mycrds.get my.key = some my := by
  rcases exec_child h with ⟨_, e, he⟩ | ⟨hf, ha, rfl⟩
  · cases he
  · refine ⟨hf, ha, rfl, ?_⟩
    rw [written_mycrds, c.mycrds.keyed k my hmy, hmy]

/-- **Whichever calls fail**, the cluster is as it was, or the child is stored, or all is settled. -/
theorem exec_reconcile {r : Except Err Unit} (h : Exec (effect latest) (reconcile k) c es r c') :
    c' = c ∨ ∃ my, c.mycrds.get k = some my ∧ foreign my (base my c) = false ∧
      ∃ ha : Accepted my c, c' = written my c ha ∨ c' = settled my c ha := by
  cases exec_reconcileRun h with
  | unread m => exact Or.inl rfl
  | gone hmy => exact Or.inl rfl
  | @child my _ _ _ hmy hchild =>
      rcases exec_child hchild with ⟨rfl, _⟩ | ⟨hf, ha, rfl⟩
      · exact Or.inl rfl
      · exact Or.inr ⟨my, hmy, hf, ha, Or.inl rfl⟩
  | @status my _ _ _ _ _ _ hmy hchild hstatus =>
      obtain ⟨hf, ha, rfl, hmy'⟩ := child_written hmy hchild
      have hsettled := exec_status hmy' (written_child ha) hstatus
      exact Or.inr ⟨my, hmy, hf, ha, hsettled⟩

/-- Another object is the controller of the child: it is read, and that is all. -/
theorem exec_child_foreign {r : Except Err OperationResult} (hf : foreign my (base my c) = true)
    (h : Exec (effect latest) (reconcileChild my) c es r c') :
    c' = c ∧ (∃ e, r = .error e) ∧ ∀ e ∈ es, e.op.writesDeployment = false := by
  cases exec_childRun h with
  | unread m => exact ⟨rfl, ⟨_, rfl⟩, by simp [ApiCall.writesDeployment]⟩
  | refused hf' e => exact ⟨rfl, ⟨e, rfl⟩, by simp [ApiCall.writesDeployment]⟩
  | wrote hf' _ _ =>
      rw [hf] at hf'
      cases hf'

/-- A run that must not touch the child makes no write. -/
theorem exec_idle {r : Except Err Unit} (h : Exec (effect latest) (reconcile k) c es r c')
    (hidle : ∀ my, c.mycrds.get k = some my → foreign my (base my c) = true) :
    c' = c ∧ (∀ e ∈ es, e.op.writesDeployment = false) ∧
      ∀ my, c.mycrds.get k = some my → ∃ e, r = .error e := by
  cases exec_reconcileRun h with
  | unread m => exact ⟨rfl, by simp [ApiCall.writesDeployment], fun my h => ⟨_, rfl⟩⟩
  | gone hmy =>
      refine ⟨rfl, by simp [ApiCall.writesDeployment], fun my h => ?_⟩
      rw [hmy] at h
      cases h
  | @child my _ _ _ hmy hchild =>
      obtain ⟨rfl, _, hwrites⟩ := exec_child_foreign (hidle my hmy) hchild
      refine ⟨rfl, ?_, fun my h => ⟨_, rfl⟩⟩
      simpa [ApiCall.writesDeployment] using hwrites
  | @status my _ _ _ _ _ _ hmy hchild hstatus =>
      obtain ⟨_, ⟨e, he⟩, _⟩ := exec_child_foreign (hidle my hmy) hchild
      cases he

end Operator
