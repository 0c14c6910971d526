/-
  File:      BlogDemo/Operator/Isolation.lean
  Subject:   CUSTOM RESOURCES DO NOT DISTURB EACH OTHER: which objects a run of `Reconcile` reads and
             writes, and two runs for different custom resources.

  * `Own`, `reconcile_own` -- every call of a run, whatever it is answered, is about the custom
    resource of the request or its child;
  * `own_footprint` -- such a call reads and writes these two objects only;
  * `Isolated`, **`isolated`** -- two custom resources that differ in name or namespace are isolated.
-/
import BlogDemo.Operator.Runs

namespace Operator

open Atomic Kube
open Prog (Issues)

variable {latest : String → Bool} {c c' : Cluster latest} {my : MyCRD} {d : Deployment} {k k' : Key}

/-! ## 1. The objects of a custom resource -/

/-- The key of the child of the custom resource under `k`. -/
def childKey (k : Key) : Key := ⟨k.ns, k.name ++ "-deploy"⟩

theorem deployKey_key : my.deployKey = childKey my.key := rfl

theorem childKey_injective (h : childKey k = childKey k') : k = k' := by
  obtain ⟨hns, hname⟩ := Key.mk.inj h
  cases k
  cases k'
  exact congrArg₂ Key.mk hns ((String.append_left_inj "-deploy").mp hname)

/-- The call is about the custom resource under `k` or its child. -/
def Own (k : Key) : ApiCall → Prop
  | .getMyCRD key => key = k
  | .getDeployment key => key = childKey k
  | .createDeployment d => d.key = childKey k
  | .updateDeployment d => d.key = childKey k
  | .updateStatus my => my.key = k

theorem status_own (hk : my.key = k) : (reconcileStatus my).Issues (Own k) := by
  refine ⟨hk ▸ rfl, fun r => ?_⟩
  cases r with
  | error e => exact Prog.issues_ret _
  | ok fresh =>
      show Issues (Own k) (if _ then _ else _)
      split
      · refine ⟨hk, fun r => ?_⟩
        cases r <;> exact Prog.issues_ret _
      · exact Prog.issues_ret _

/-- **Every call is about the custom resource or its child.** -/
theorem reconcile_own (k : Key) : (reconcile k).Issues (Own k) := by
  rw [reconcile_call]
  refine ⟨rfl, fun r => ?_⟩
  match r with
  | .error .notFound => exact Prog.issues_ret _
  | .error .alreadyExists => exact Prog.issues_ret _
  | .error .invalid => exact Prog.issues_ret _
  | .error (.failed m) => exact Prog.issues_ret _
  | .ok ⟨my, hk⟩ =>
      have hkey : (frame my).key = childKey k := hk ▸ rfl
      have hchild : (reconcileChild my).Issues (Own k) :=
        createOrUpdate_issues (Prog.issues_send hkey) (fun d hd => Prog.issues_send (hd.trans hkey))
          fun d hd => Prog.issues_send (hd.trans hkey)
      refine hchild.bind fun r => ?_
      cases r with
      | error e => exact Prog.issues_ret _
      | ok _ => exact status_own hk

/-! ## 2. Footprints -/

/-- An object of the cluster: a custom resource, or a Deployment. -/
abbrev Location := Key ⊕ Key

def read (c : Cluster latest) : Location → Option MyCRD ⊕ Option Deployment
  | .inl k => .inl (c.mycrds.get k)
  | .inr k => .inr (c.deployments.get k)

theorem read_ext (h : ∀ l, read c l = read c' l) : c = c' := by
  ext1
  · ext1
    funext k
    exact Sum.inl.inj (h (.inl k))
  · ext1
    funext k
    exact Sum.inr.inj (h (.inr k))

/-- The custom resource under `k` and its child. -/
def footprint (k : Key) : Set Location := {.inl k, .inr (childKey k)}

theorem footprint_disjoint (h : k ≠ k') : ∀ l ∈ footprint k, l ∉ footprint k' := by
  rintro l (rfl | rfl) (hl | hl)
  · exact h (Sum.inl.inj hl)
  · cases hl
  · cases hl
  · exact h (childKey_injective (Sum.inr.inj hl))

theorem footprint_put_deployment {hd : d.valid = true} (hk : d.key = childKey k) {l : Location} :
    read (c.putDeployment d hd) l =
      if l = .inr (childKey k) then .inr (some (d.setDefaults latest)) else read c l := by
  cases l with
  | inl key => simp [read]
  | inr key =>
      simp only [read, Cluster.putDeployment_get, hk, Sum.inr.injEq]
      split <;> rfl

theorem footprint_put_mycrd (hk : my.key = k) {l : Location} :
    read (c.putMyCRD my) l = if l = .inl k then .inl (some my) else read c l := by
  cases l with
  | inr key => simp [read]
  | inl key =>
      simp only [read, Cluster.putMyCRD_get, hk, Sum.inl.injEq]
      split <;> rfl

/-- Clusters that agree on the custom resource and its child. -/
theorem footprint_agree (h : ∀ l ∈ footprint k, read c l = read c' l) :
    c.mycrds.get k = c'.mycrds.get k ∧
      c.deployments.get (childKey k) = c'.deployments.get (childKey k) :=
  ⟨Sum.inl.inj (h (.inl k) (Or.inl rfl)), Sum.inr.inj (h (.inr (childKey k)) (Or.inr rfl))⟩

theorem create_footprint (hd : d.key = childKey k) :
    CallFootprint (apply latest) read (footprint k) (.createDeployment d) := by
  by_cases hv : ({ d with status := {} } : Deployment).valid = true
  · have hkey : ({ d with status := {} } : Deployment).key = childKey k := hd
    refine ⟨⟨fun s l hl => ?_, fun s s' h l hl => ?_⟩, fun s s' h => ?_⟩
    · have hne : l ≠ .inr (childKey k) := fun h => hl (Or.inr h)
      simp only [apply, dif_pos hv]
      split
      · rfl
      · rw [footprint_put_deployment hkey, if_neg hne]
    · simp only [apply, dif_pos hv, hd, (footprint_agree h).2]
      split
      · exact h l hl
      · rw [footprint_put_deployment hkey, footprint_put_deployment hkey, h l hl]
    · simp only [apply, dif_pos hv, hd, (footprint_agree h).2]
      split <;> rfl
  · exact .of_read (fun s => by simp only [apply, dif_neg hv])
      fun s s' _ => by simp only [apply, dif_neg hv]

theorem update_footprint (hd : d.key = childKey k) :
    CallFootprint (apply latest) read (footprint k) (.updateDeployment d) := by
  have hkey : ∀ old : Deployment, ({ d with status := old.status } : Deployment).key = childKey k :=
    fun _ => hd
  refine ⟨⟨fun s l hl => ?_, fun s s' h l hl => ?_⟩, fun s s' h => ?_⟩
  · have hne : l ≠ .inr (childKey k) := fun h => hl (Or.inr h)
    simp only [apply]
    split
    · rfl
    · split
      · rw [footprint_put_deployment (hkey _), if_neg hne]
      · rfl
  · simp only [apply, hd, (footprint_agree h).2]
    split
    · exact h l hl
    · split
      · rw [footprint_put_deployment (hkey _), footprint_put_deployment (hkey _), h l hl]
      · exact h l hl
  · simp only [apply, hd, (footprint_agree h).2]
    split
    · rfl
    · split <;> rfl

theorem status_footprint (hk : my.key = k) :
    CallFootprint (apply latest) read (footprint k) (.updateStatus my) := by
  have hkey : ∀ c : Cluster latest, ∀ old, c.mycrds.get k = some old →
      ({ old with status := my.status } : MyCRD).key = k := fun c old h => c.mycrds.keyed k old h
  refine ⟨⟨fun s l hl => ?_, fun s s' h l hl => ?_⟩, fun s s' h => ?_⟩
  · have hne : l ≠ .inl k := fun h => hl (Or.inl h)
    simp only [apply, hk]
    split
    · rfl
    · rename_i old hold
      rw [footprint_put_mycrd (hkey s old hold), if_neg hne]
  · simp only [apply, hk, (footprint_agree h).1]
    split
    · exact h l hl
    · rename_i old hold
      rw [footprint_put_mycrd (hkey s' old hold), footprint_put_mycrd (hkey s' old hold), h l hl]
  · simp only [apply, hk, (footprint_agree h).1]
    split <;> rfl

/-- **A call about the custom resource or its child reads and writes these two only.** -/
theorem own_footprint {op : ApiCall} (hop : Own k op) :
    CallFootprint (apply latest) read (footprint k) op := by
  cases op with
  | getMyCRD key =>
      cases (hop : key = k)
      refine .of_read (getMyCRD_same _) fun s s' h => ?_
      simp only [apply, Keyed.find_congr (footprint_agree h).1]
      split <;> rfl
  | getDeployment key =>
      cases (hop : key = childKey k)
      refine .of_read (getDeployment_same _) fun s s' h => ?_
      simp only [apply, Keyed.find_congr (footprint_agree h).2]
      split <;> rfl
  | createDeployment d => exact create_footprint hop
  | updateDeployment d => exact update_footprint hop
  | updateStatus my => exact status_footprint hop

/-! ## 3. Isolation -/

/-- What a run of `Reconcile` for `k` can change, whichever calls fail. -/
structure OnlyOwn (k : Key) (c c' : Cluster latest) : Prop where
  deployments : ∀ key, key ≠ childKey k → c'.deployments.get key = c.deployments.get key
  mycrds : ∀ key, key ≠ k → c'.mycrds.get key = c.mycrds.get key
  status : ∃ status, c'.mycrds.get k =
    (c.mycrds.get k).map fun my : MyCRD => { my with status := status }

theorem onlyOwn_refl (k : Key) (c : Cluster latest) : OnlyOwn k c c where
  deployments _ _ := rfl
  mycrds _ _ := rfl
  status := by
    cases h : c.mycrds.get k with
    | none => exact ⟨{}, rfl⟩
    | some my => exact ⟨my.status, rfl⟩

theorem onlyOwn_written (hmy : c.mycrds.get k = some my) (h : Accepted my c) :
    OnlyOwn k c (written my c h) := by
  have hkey : (mutated my (base my c)).key = childKey k := by
    rw [mutated_key, base_key, deployKey_key, c.mycrds.keyed k my hmy]
  refine ⟨fun key hne => ?_, fun _ _ => rfl, (onlyOwn_refl k c).status⟩
  rw [written, Cluster.putDeployment_get, hkey, if_neg hne]

theorem onlyOwn_settled (hmy : c.mycrds.get k = some my) (h : Accepted my c) :
    OnlyOwn k c (settled my c h) := by
  have hkey : my.key = k := c.mycrds.keyed k my hmy
  refine ⟨(onlyOwn_written hmy h).deployments, fun key hne => ?_,
    ⟨⟨(base my c).status.availableReplicas⟩, ?_⟩⟩
  · rw [settled_mycrds, if_neg (fun h => hne (h.trans hkey))]
  · rw [settled_mycrds, if_pos hkey.symm, hmy]
    rfl

theorem exec_onlyOwn {es : List (Made ApiCall Answer)} {r : Except Err Unit}
    (h : Exec (effect latest) (reconcile k) c es r c') : OnlyOwn k c c' := by
  rcases exec_reconcile h with rfl | ⟨my, hmy, _, ha, rfl | rfl⟩
  · exact onlyOwn_refl k c'
  · exact onlyOwn_written hmy ha
  · exact onlyOwn_settled hmy ha

/-- **Two custom resources are isolated**: what `Reconcile` does for `A` does not concern `B`. -/
structure Isolated (latest : String → Bool) (A B : MyCRD) : Prop where
  /-- Whichever calls fail, a run makes calls about `A` and its child only, and changes the child
      and the status. -/
  own : ∀ (c c' : Cluster latest) es r, Exec (effect latest) (reconcile A.key) c es r c' →
    (∀ e ∈ es, Own A.key e.op) ∧ OnlyOwn A.key c c'
  /-- A Deployment that another object controls is left alone, and an error says so. -/
  foreign : ∀ (c c' : Cluster latest) es r d ref, c.mycrds.get A.key = some A →
    c.deployments.get A.deployKey = some d →
    getControllerOf d.metadata.ownerReferences = some ref →
    (groupOf ref.apiVersion ≠ groupOf A.owner.apiVersion ∨ ref.kind ≠ "MyCRD" ∨ ref.name ≠ A.name) →
    Exec (effect latest) (reconcile A.key) c es r c' → c' = c ∧ ∃ e, r = .error e
  distinct : A.deployKey ≠ B.deployKey
  /-- In one namespace, the selector of a child that is created selects no pod of the other's. -/
  selectors : A.ns = B.ns → ∀ created other d, mutate A (frame A) = .ok created →
    mutate B other = .ok d → ∃ s, created.spec.selector = some s ∧
      s.matches d.spec.template.labels = false
  /-- Two runs in which no call fails can be made in either order. -/
  comm : ∀ c : Cluster latest,
    reconciled B.key (reconciled A.key c) = reconciled A.key (reconciled B.key c)

/-- The runs for two custom resources commute. -/
theorem reconciled_comm (h : k ≠ k') (c : Cluster latest) :
    reconciled k' (reconciled k c) = reconciled k (reconciled k' c) := by
  have hcalls : ∀ k, (reconcile k).Issues (CallFootprint (apply latest) read (footprint k)) :=
    fun k => (reconcile_own k).mono fun _ => own_footprint
  exact Footprint.comm (Prog.run_footprint (hcalls k')).1 (Prog.run_footprint (hcalls k)).1
    (footprint_disjoint h.symm) (fun _ _ => read_ext) c

theorem mutate_selector {created : Deployment} (h : mutate my d = .ok created) :
    created.spec = mutateSpec my d.spec := by
  unfold mutate at h
  split at h
  · cases h
  · cases h
    rfl

/-- **Custom resources that differ in name or namespace are isolated.** -/
theorem isolated (latest : String → Bool) {A B : MyCRD} (h : A.key ≠ B.key) :
    Isolated latest A B where
  own c c' es r he := ⟨he.issues (reconcile_own A.key), exec_onlyOwn he⟩
  foreign c c' es r d ref hA hd hc href he := by
    have hf : foreign A (base A c) = true := by
      rw [base_some hd]
      exact foreign_of_ref hc href
    obtain ⟨rfl, _, herr⟩ := exec_idle he fun my hmy => by
      rw [hA] at hmy
      cases hmy
      exact hf
    exact ⟨rfl, herr A hA⟩
  distinct hAB := h (childKey_injective hAB)
  selectors hns created other d hc hd := by
    have hname : A.name ≠ B.name := fun hname => h (congrArg₂ Key.mk hns hname)
    refine ⟨⟨labels A.name, []⟩, ?_, ?_⟩
    · rw [mutate_selector hc]
      rfl
    · rw [mutate_selector hd, ← Bool.not_eq_true]
      exact fun hm => hname ((labels_match A.name B.name).mp hm)
  comm c := reconciled_comm h c

theorem isolated_demo : Isolated (fun _ => false) ⟨"demo", "default", "1", none, {}, {}⟩
    ⟨"demo", "staging", "2", none, {}, {}⟩ :=
  isolated _ (by decide)

end Operator
