/-
  File:      BlogDemo/Operator/Status.lean
  Subject:   WHAT A NIL ERROR OF `Reconcile` SAYS: whether every call of the run was made, and whether
             the status is the one of the Deployment as the run has read it.

  * `exec_child_calls`, `exec_status_calls` -- the calls of the two halves of a run, in order;
  * `NeverStale` -- a nil error is returned only when nothing failed and the status is up to date;
  * **`neverStale_iff`** -- a run keeps this if and only if the second read of the Deployment does
    not fail: that one failure is dropped.
-/
import BlogDemo.Operator.Convergence

namespace Operator

open Atomic Kube
open Prog (send)

variable {latest : String → Bool} {c c' : Cluster latest} {my : MyCRD} {d : Deployment} {k : Key}
  {es : List (Made ApiCall Answer)}

/-! ## 1. The reads of a run -/

/-- What a read of a Deployment is answered. -/
def readOf : Made ApiCall Answer → Option (Except ApiError Deployment)
  | ⟨.getDeployment _, .ok d⟩ => some (.ok d.1)
  | ⟨.getDeployment _, .error e⟩ => some (.error e)
  | _ => none

/-- The read after `CreateOrUpdate`, which has read the Deployment once itself. -/
def freshRead (es : List (Made ApiCall Answer)) : Option (Except ApiError Deployment) :=
  (es.filterMap readOf)[1]?

theorem readOf_write {e : Made ApiCall Answer} (h : e.op.writesDeployment = true) :
    readOf e = none := by
  obtain ⟨op, r⟩ := e
  cases op with
  | createDeployment d => rfl
  | updateDeployment d => rfl
  | getMyCRD k => cases h
  | getDeployment k => cases h
  | updateStatus my => cases h

theorem reads_write (h : ∀ e ∈ es, e.op.writesDeployment = true) : es.filterMap readOf = [] :=
  List.filterMap_eq_nil_iff.mpr fun e he => readOf_write (h e he)

/-! ## 2. The calls of the two halves -/

/-- **The first half** reads the Deployment, then at most writes it; it returns an error when one of
    these fails. -/
theorem exec_child_calls {r : Except Err OperationResult}
    (h : Exec (effect latest) (reconcileChild my) c es r c') :
    ∃ a es', es = ⟨.getDeployment my.deployKey, a⟩ :: es' ∧
      (∀ e ∈ es', e.op.writesDeployment = true) ∧
      ((∃ e, r = .error e) ∨ (∃ x, r = .ok x) ∧ ∀ e ∈ es, ¬ Fails e) := by
  cases exec_childRun h with
  | unread m => exact ⟨_, [], rfl, fun e h => absurd h List.not_mem_nil, Or.inl ⟨_, rfl⟩⟩
  | refused hf e => exact ⟨_, [], rfl, fun e h => absurd h List.not_mem_nil, Or.inl ⟨e, rfl⟩⟩
  | @wrote op x result answer r _ hf hw hwrite =>
      refine ⟨_, [⟨op, r⟩], rfl, ?_, ?_⟩
      · intro e he
        obtain rfl := List.mem_singleton.mp he
        exact hw.writes
      · cases r with
        | error e => exact Or.inl ⟨_, hw.error e⟩
        | ok y =>
            refine Or.inr ⟨⟨result, ?_⟩, ?_⟩
            · have hy : y = x := by
                have happlied := hw.applied
                rcases hwrite.answer with ⟨hr, _⟩ | ⟨_, m, hr⟩
                · rw [happlied] at hr
                  split at hr
                  · exact Except.ok.inj hr
                  · cases hr
                · cases hr
              rw [hy, hw.ok]
            · intro e he
              rcases List.mem_cons.mp he with rfl | he
              · exact getDeployment_not_fails _ c
              · obtain rfl := List.mem_singleton.mp he
                exact ok_not_fails rfl

/-- **The second half** reads the Deployment again and at most writes the status. It returns no error
    when the read fails; otherwise it returns an error, or the status is what was read. -/
theorem exec_status_calls {r : Except Err Unit} (hmy : c.mycrds.get my.key = some my)
    (hd : c.deployments.get my.deployKey = some d)
    (h : Exec (effect latest) (reconcileStatus my) c es r c') :
    (∃ m, es = [⟨.getDeployment my.deployKey, .error (.failed m)⟩] ∧ r = .ok ()) ∨
    ∃ hkey es', es = ⟨.getDeployment my.deployKey, .ok ⟨d, hkey⟩⟩ :: es' ∧
      es'.filterMap readOf = [] ∧ ((∃ e, r = .error e) ∨ (∀ e ∈ es', ¬ Fails e) ∧
        c' = c.putMyCRD { my with status := ⟨d.status.availableReplicas⟩ }) := by
  cases exec_statusRun hmy hd h with
  | unread m => exact Or.inl ⟨m, rfl, rfl⟩
  | same hkey heq =>
      refine Or.inr ⟨hkey, [], rfl, rfl, Or.inr ⟨fun e he => absurd he List.not_mem_nil, ?_⟩⟩
      exact (putMyCRD_upToDate hmy heq).symm
  | failed hkey e hc => exact Or.inr ⟨hkey, [_], rfl, rfl, Or.inl ⟨_, rfl⟩⟩
  | wrote hkey =>
      refine Or.inr ⟨hkey, [_], rfl, rfl, Or.inr ⟨fun e he => ?_, rfl⟩⟩
      obtain rfl := List.mem_singleton.mp he
      exact ok_not_fails rfl

/-! ## 3. When the status may be stale -/

/-- **A nil error says that all is up to date**: every call succeeded, and the status is the one of the
    Deployment as the run has read it; and whatever fails is returned as an error. -/
structure NeverStale (k : Key) (c c' : Cluster latest) (es : List (Made ApiCall Answer))
    (r : Except Err Unit) : Prop where
  upToDate : r = .ok () → ∀ my, c.mycrds.get k = some my → (∀ e ∈ es, ¬ Fails e) ∧
    ∃ d my', freshRead es = some (.ok d) ∧ d.key = my.deployKey ∧ c'.mycrds.get k = some my' ∧
      my'.status.availableReplicas = d.status.availableReplicas
  reported : (∃ e ∈ es, Fails e) → ∃ err, r = .error err

/-- The second read of the Deployment is answered with an error, whichever. -/
def FreshFails (es : List (Made ApiCall Answer)) : Prop :=
  ∃ e, freshRead es = some (.error e)

theorem neverStale_of_error {err : Err} : NeverStale k c c' es (.error err) :=
  ⟨fun h => (nomatch h), fun _ => ⟨err, rfl⟩⟩

/-- A run in which nothing failed, and after which the status is the one it has read. -/
theorem iff_of_ok {r : Except Err Unit} {my' : MyCRD} (hmy : c.mycrds.get k = some my)
    (hok : ∀ e ∈ es, ¬ Fails e) (hfresh : freshRead es = some (.ok d)) (hd : d.key = my.deployKey)
    (hmy' : c'.mycrds.get k = some my')
    (hstatus : my'.status.availableReplicas = d.status.availableReplicas) :
    NeverStale k c c' es r ↔ ¬ FreshFails es := by
  refine iff_of_true ⟨fun _ my₁ hmy₁ => ?_, fun ⟨e, he, hfails⟩ => absurd hfails (hok e he)⟩ ?_
  · obtain rfl : my = my₁ := Option.some.inj (hmy.symm.trans hmy₁)
    exact ⟨hok, d, my', hfresh, hd, hmy', hstatus⟩
  · intro h
    obtain ⟨m, hm⟩ := h
    rw [hfresh] at hm
    cases hm

/-- A run that reads the Deployment once at most has no second read that fails. -/
theorem not_freshFails {r : Option (Except ApiError Deployment)}
    (h : es.filterMap readOf = r.toList) : ¬ FreshFails es := by
  intro h'
  obtain ⟨m, hm⟩ := h'
  rw [freshRead, h] at hm
  cases r <;> cases hm

/-- The reads of a run that got past the first half. -/
theorem reads_append {a : Answer (.getMyCRD k)} {b : Answer (.getDeployment my.deployKey)}
    {es₁ es₂ : List (Made ApiCall Answer)} (h : ∀ e ∈ es₁, e.op.writesDeployment = true) :
    freshRead (⟨.getMyCRD k, a⟩ :: (⟨.getDeployment my.deployKey, b⟩ :: es₁ ++ es₂)) =
      (es₂.filterMap readOf)[0]? := by
  have hb : ∃ x, readOf ⟨.getDeployment my.deployKey, b⟩ = some x := by
    cases b with
    | ok d => exact ⟨_, rfl⟩
    | error e => exact ⟨_, rfl⟩
  obtain ⟨x, hx⟩ := hb
  have ha : readOf ⟨.getMyCRD k, a⟩ = none := rfl
  rw [freshRead, List.filterMap_cons_none ha, List.cons_append, List.filterMap_cons_some hx,
    List.filterMap_append, reads_write h]
  rfl

/-- The second read of a run finds the Deployment, which the run has just seen to, or fails. -/
theorem freshRead_ne_notFound {r : Except Err Unit}
    (h : Exec (effect latest) (reconcile k) c es r c') : freshRead es ≠ some (.error .notFound) := by
  intro hread
  cases exec_reconcileRun h with
  | unread m => cases hread
  | gone hmy => cases hread
  | @child my es _ _ hmy hchild =>
      obtain ⟨a, es', rfl, hwrites, _⟩ := exec_child_calls hchild
      have hnone := @reads_append my k (.ok ⟨my, c.mycrds.keyed k my hmy⟩) a es' [] hwrites
      rw [List.append_nil] at hnone
      rw [hnone] at hread
      cases hread
  | @status my es es₂ x r c₁ _ hmy hchild hstatus =>
      obtain ⟨_, ha, rfl, hmy'⟩ := child_written hmy hchild
      obtain ⟨a, es', rfl, hwrites, _⟩ := exec_child_calls hchild
      rcases exec_status_calls hmy' (written_child ha) hstatus with
        ⟨m, rfl, _⟩ | ⟨hd, es₂', rfl, _⟩
      · rw [reads_append hwrites] at hread
        cases hread
      · rw [reads_append hwrites] at hread
        cases hread

theorem FreshFails.fails {r : Except Err Unit} (h : Exec (effect latest) (reconcile k) c es r c')
    (hfresh : FreshFails es) : ∃ e ∈ es, Fails e := by
  obtain ⟨err, herr⟩ := hfresh
  have hne : err ≠ .notFound := by
    rintro rfl
    exact freshRead_ne_notFound h herr
  obtain ⟨e, he, hread⟩ := List.mem_filterMap.mp (List.mem_of_getElem? herr)
  refine ⟨e, he, err, ?_, hne⟩
  unfold readOf at hread
  split at hread
  · cases hread
  · cases hread
    rfl
  · cases hread

/-- **A nil error is kept to what it says if and only if** the second read of the Deployment does not
    fail. -/
theorem neverStale_iff {r : Except Err Unit} (h : Exec (effect latest) (reconcile k) c es r c') :
    NeverStale k c c' es r ↔ ¬ FreshFails es := by
  have hone : ∀ r₁ : Answer (.getMyCRD k), ¬ FreshFails [⟨.getMyCRD k, r₁⟩] := fun r₁ =>
    not_freshFails (r := none) rfl
  cases exec_reconcileRun h with
  | unread m => exact iff_of_true neverStale_of_error (hone _)
  | gone hmy =>
      refine iff_of_true ⟨fun _ my h => ?_, ?_⟩ (hone _)
      · rw [hmy] at h
        cases h
      · intro h'
        obtain ⟨e, he, hfails⟩ := h'
        obtain rfl := List.mem_singleton.mp he
        exact absurd hfails (notFound_not_fails rfl)
  | @child my es _ _ hmy hchild =>
      obtain ⟨a, es', rfl, hwrites, _⟩ := exec_child_calls hchild
      refine iff_of_true neverStale_of_error ?_
      intro h'
      obtain ⟨m, hm⟩ := h'
      have hread := @reads_append my k (.ok ⟨my, c.mycrds.keyed k my hmy⟩) a es' [] hwrites
      rw [List.append_nil] at hread
      rw [hread] at hm
      cases hm
  | @status my es es₂ x r c₁ _ hmy hchild hstatus =>
      have hkey : my.key = k := c.mycrds.keyed k my hmy
      obtain ⟨_, ha, rfl, hmy'⟩ := child_written hmy hchild
      obtain ⟨a, es', rfl, hwrites, ⟨e, he⟩ | ⟨_, hok⟩⟩ := exec_child_calls hchild
      · cases he
      rcases exec_status_calls hmy' (written_child ha) hstatus with
        ⟨m, rfl, rfl⟩ | ⟨hd, es₂', rfl, hreads, ⟨e, rfl⟩ | ⟨hok', rfl⟩⟩
      · -- the failure that is dropped
        have hfresh : freshRead (⟨.getMyCRD k, .ok ⟨my, c.mycrds.keyed k my hmy⟩⟩ ::
            (⟨.getDeployment my.deployKey, a⟩ :: es' ++
              [⟨.getDeployment my.deployKey, .error (.failed m)⟩])) =
            some (.error (.failed m)) := reads_append hwrites
        refine iff_of_false (fun hns => ?_) (not_not_intro ⟨_, hfresh⟩)
        have hfails : Fails ⟨.getDeployment my.deployKey, .error (.failed m)⟩ :=
          ⟨_, rfl, by simp⟩
        obtain ⟨err, herr⟩ := hns.reported ⟨_, by simp, hfails⟩
        cases herr
      · refine iff_of_true neverStale_of_error ?_
        intro h'
        obtain ⟨m, hm⟩ := h'
        rw [reads_append hwrites] at hm
        cases hm
      · have hget : (settled my c ha).mycrds.get k = some (reported my c) := by
          rw [settled_mycrds, hkey, if_pos rfl]
        refine iff_of_ok hmy (fun e he => ?_) (reads_append hwrites) hd hget rfl
        rcases List.mem_cons.mp he with rfl | he
        · exact ok_not_fails rfl
        · rcases List.mem_append.mp he with he | he
          · exact hok e he
          · rcases List.mem_cons.mp he with rfl | he
            · exact ok_not_fails rfl
            · exact hok' e he

/-- A run in which no call fails. -/
theorem neverStale_demo : NeverStale demo.key demoCluster (reconciled demo.key demoCluster)
    ((reconcile demo.key).run (apply fun _ => false) demoCluster).1 (.ok ()) := by
  have hf := unclaimed_base (reachable_unclaimed demo_reachable) rfl
  obtain ⟨hrun, hok⟩ := run_settled (k := demo.key) rfl hf demo_accepted
  have hexec := exec_run (E := effect fun _ => false) (fun _ _ => .done) (reconcile demo.key)
    demoCluster
  rw [hrun] at hexec
  rw [reconciled, hrun]
  refine (neverStale_iff hexec).mpr fun hfresh => ?_
  obtain ⟨e, he, hfails⟩ := hfresh.fails hexec
  exact hok e he hfails

/-! ## 4. A status that stays stale -/

/-- The Deployment of the demo, when one of its pods is available. -/
def available : Deployment := { frame demo with status := ⟨1⟩ }

theorem available_valid : (mutated demo available).valid = true := demo_accepted

/-- The cluster in which this has not been reported yet. -/
def staleCluster : Cluster fun _ => false :=
  demoCluster.putDeployment (mutated demo available) available_valid

theorem stale_child : staleCluster.deployments.get demo.deployKey =
    some ((mutated demo available).setDefaults fun _ => false) := by
  rw [staleCluster, Cluster.putDeployment_get]
  exact if_pos rfl

theorem stale_accepted : Accepted demo staleCluster := by
  rw [Accepted, base_some stale_child, ← valid_setDefaults fun _ => false, mutated_again,
    valid_setDefaults]
  exact available_valid

/-- **The status stays stale**: the second read fails, and the run returns no error. -/
theorem stale_run : ∃ es, Exec (effect fun _ => false) (reconcile demo.key) staleCluster es (.ok ())
    staleCluster ∧ FreshFails es := by
  have hmy : staleCluster.mycrds.get demo.key = some demo := rfl
  have hf : foreign demo (base demo staleCluster) = false := by
    rw [base_some stale_child]
    exact mutated_not_foreign (d := available) frame_not_foreign
  obtain ⟨es, result, hchild, -, -⟩ := run_child hf stale_accepted
  have hexec := exec_run (E := effect fun _ => false) (fun _ _ => .done) (reconcileChild demo)
    staleCluster
  rw [hchild, written_again stale_child] at hexec
  obtain ⟨a, es', rfl, hwrites, -⟩ := exec_child_calls hexec
  have hfault : effect (fun _ => false) (.getDeployment demo.deployKey) staleCluster
      (.error (.failed "timeout")) staleCluster := Faulty.refused _ ⟨_, rfl⟩
  have hstatus : Exec (effect fun _ => false) (reconcileStatus demo) staleCluster
      [⟨.getDeployment demo.deployKey, .error (.failed "timeout")⟩] (.ok ()) staleCluster :=
    .call hfault (.ret _ _)
  have hread : effect (fun _ => false) (.getMyCRD demo.key) staleCluster (.ok ⟨demo, rfl⟩)
      staleCluster := Faulty.done
  rw [reconcile_call]
  refine ⟨_, .call hread (hexec.bind hstatus), .failed "timeout", ?_⟩
  exact reads_append hwrites

/-- **A nil error does not say that the status is up to date.** -/
theorem stale_not_neverStale : (∃ es, Exec (effect fun _ => false) (reconcile demo.key) staleCluster es
    (.ok ()) staleCluster ∧ ¬ NeverStale demo.key staleCluster staleCluster es (.ok ())) ∧
    ∃ child, staleCluster.mycrds.get demo.key = some demo ∧
      staleCluster.deployments.get demo.deployKey = some child ∧
      demo.status.availableReplicas ≠ child.status.availableReplicas := by
  obtain ⟨es, hexec, hfresh⟩ := stale_run
  obtain ⟨e, he, hfails⟩ := hfresh.fails hexec
  exact ⟨⟨es, hexec, fun h => (h.upToDate rfl demo rfl).1 e he hfails⟩, _, rfl, stale_child, by decide⟩

end Operator
