/-
  File:      BlogDemo/Operator/Conflicts.lean
  Subject:   NO UPDATE IS LOST: what a call of the operator does to the server's objects, whatever was
             written since the run has read them.

  A run reads from caches that are behind, and everybody writes at the same time. What keeps a write
  from undoing the others' is the resource version that it carries.

  * `Respects` -- a call leaves every object alone but the child, of which it keeps what is not its own,
    and the status of the custom resource;
  * `respectful_reconcile` -- what a run remembers of the versions it has read, call by call;
  * **`call_respects`** -- every call in every state that is reached.
-/
import BlogDemo.Operator.Loop

namespace Operator

open Atomic Kube

variable {latest : String → Bool} {w w' : World latest} {my : MyCRD} {d : Deployment} {k : Key}
  {x x' : Held} {op : ApiCall} {v : Version MyCRD} {vd : Version Deployment}

/-! ## 1. What a call may do -/

/-- A state of the custom resource under `k` that the cache has, or has had. -/
def WasMyCRD (k : Key) (my : MyCRD) (w : World latest) : Prop := ∃ v, w.mycrds.Past k v ∧ v.obj = my

def WasDeployment (k : Key) (d : Deployment) (w : World latest) : Prop :=
  ∃ v, w.deployments.Past k v ∧ v.obj = d

/-- **The child after a call**: created where there was none, or changed where the server had one that no
    other object controls. What the operator does not set itself is as the server had it. -/
inductive ChildWrite (latest : String → Bool) (my : MyCRD) :
    Option Deployment → Option Deployment → Prop where
  | created : ChildWrite latest my none (some (asCreated latest my))
  | updated (d child : Deployment) (hf : foreign my d = false)
      (hchild : child = (mutated my d).setDefaults latest) (hdesired : Desired my child)
      (hkept : Kept child d) : ChildWrite latest my (some d) (some child)

/-- **What a call for `k` does to the server's objects.** -/
structure Respects (k : Key) (w w' : World latest) : Prop where
  deployments : ∀ key, w'.cluster.deployments.get key = w.cluster.deployments.get key ∨
    key = childKey k ∧ ∃ my, WasMyCRD k my w ∧
      ChildWrite latest my (w.cluster.deployments.get key) (w'.cluster.deployments.get key)
  /-- The specification of the custom resource is the user's. The status comes from a state of the child. -/
  mycrds : ∀ key, w'.cluster.mycrds.get key = w.cluster.mycrds.get key ∨
    key = k ∧ ∃ my d, w.cluster.mycrds.get key = some my ∧ WasDeployment (childKey k) d w ∧
      w'.cluster.mycrds.get key = some { my with status := ⟨d.status.availableReplicas⟩ }

theorem respects_refl (k : Key) (w : World latest) : Respects k w w :=
  ⟨fun _ => Or.inl rfl, fun _ => Or.inl rfl⟩

theorem writeDeployment_get (op : ApiCall) (key key' : Key) :
    (w.writeDeployment op key).cluster.deployments.get key' =
      if key' = key then (apply latest op w.cluster).2.deployments.get key
      else w.cluster.deployments.get key' :=
  Watched.set_stored _ (h := (apply latest op w.cluster).2.deployments.keyed key) key'

theorem writeMyCRD_get (op : ApiCall) (key key' : Key) :
    (w.writeMyCRD op key).cluster.mycrds.get key' =
      if key' = key then (apply latest op w.cluster).2.mycrds.get key
      else w.cluster.mycrds.get key' :=
  Watched.set_stored _ (h := (apply latest op w.cluster).2.mycrds.keyed key) key'

/-- A write of the child, said of the child alone. -/
theorem respects_writeDeployment (hmy : WasMyCRD k my w)
    (h : (apply latest op w.cluster).2.deployments.get (childKey k) =
        w.cluster.deployments.get (childKey k) ∨
      ChildWrite latest my (w.cluster.deployments.get (childKey k))
        ((apply latest op w.cluster).2.deployments.get (childKey k))) :
    Respects k w (w.writeDeployment op (childKey k)) := by
  refine ⟨fun key => ?_, fun _ => Or.inl rfl⟩
  rw [writeDeployment_get]
  split
  · rename_i hkey
    subst hkey
    exact h.imp id fun hwrite => ⟨rfl, my, hmy, hwrite⟩
  · exact Or.inl rfl

theorem respects_create (hk : my.key = k) (hmy : WasMyCRD k my w) :
    Respects k w (w.writeDeployment (.createDeployment (mutated my (frame my))) (childKey k)) := by
  subst hk
  refine respects_writeDeployment hmy ?_
  rw [← deployKey_key]
  cases hstored : w.cluster.deployments.get my.deployKey with
  | some d =>
      have hkey : (mutated my (frame my)).key = my.deployKey := rfl
      refine Or.inl ?_
      simp only [apply, hkey, hstored]
      split <;> exact hstored
  | none =>
      rw [apply_create hstored]
      split
      · rename_i ha
        refine Or.inr ?_
        rw [written_child ha, base_none hstored]
        exact .created
      · exact Or.inl hstored

theorem respects_update (hk : my.key = k) (hmy : WasMyCRD k my w)
    (hstored : w.cluster.deployments.get my.deployKey = some d) (hf : foreign my d = false) :
    Respects k w (w.writeDeployment (.updateDeployment (mutated my d)) (childKey k)) := by
  subst hk
  refine respects_writeDeployment hmy ?_
  rw [← deployKey_key, apply_update hstored]
  split
  · rename_i ha
    have hkept := kept_mutated w.cluster my
    rw [base_some hstored, hstored, Option.getD_some] at hkept
    refine Or.inr ?_
    rw [written_child ha, base_some hstored, hstored]
    exact .updated d _ hf rfl (desired_mutated hf) hkept
  · exact Or.inl rfl

theorem respects_status (hk : my.key = k) (hstored : w.cluster.mycrds.get my.key = some my)
    (hd : WasDeployment (childKey k) d w) :
    Respects k w
      (w.writeMyCRD (.updateStatus { my with status := ⟨d.status.availableReplicas⟩ }) my.key) := by
  subst hk
  refine ⟨fun _ => Or.inl rfl, fun key => ?_⟩
  rw [writeMyCRD_get]
  split
  · rename_i hkey
    subst hkey
    rw [apply_updateStatus hstored]
    exact Or.inr ⟨rfl, my, d, hstored, hd, Function.update_self ..⟩
  · exact Or.inl rfl

/-! ## 2. What a run remembers -/

/-- **Every call of the program respects the others**, from what it knows. -/
abbrev Respectful (k : Key) (P : Held → World latest → Prop) (p : Program (Except Err Unit)) : Prop :=
  ControlLoop.Keeps (operator latest) (fun _ xw _ xw' => Respects k xw.2 xw'.2)
    (fun _ _ _ _ => True) (fun x w _ => P x w) p

/-- What a run knows whatever the others do. -/
def Lasting (P : Held → World latest → Prop) : Prop :=
  ∀ x w reqs w', Others w reqs w' → P x w → P x w'

theorem respectful_ret {P : Held → World latest → Prop} (a : Except Err Unit) :
    Respectful k P (.ret a) := fun _ _ _ _ => trivial

/-- **One call**: what it does, and from what the run goes on. -/
theorem respectful_call {P : Held → World latest → Prop}
    {next : Answer op → Program (Except Err Unit)}
    (h : ∀ x w r x' w', P x w → (operator latest).call op (x, w) r (x', w') →
      Respects k w w' ∧ ∃ P', Lasting P' ∧ P' x' w' ∧ Respectful k P' (next r)) :
    Respectful k P (.call op next) := by
  intro x w q r x' w' hp hcall
  obtain ⟨hrespects, P', hlasting, hp', hrest⟩ := h x w r x' w' hp hcall
  exact ⟨hrespects, _, fun x w q reqs w' hs hp => hlasting x w reqs w' hs hp, hp', hrest⟩

/-- The custom resource was read, and its version is remembered. -/
def Remembers (k : Key) (v : Version MyCRD) (x : Held) (w : World latest) : Prop :=
  w.mycrds.Past k v ∧ x.mycrd = some v.rev

/-- A version that was read stays in the past. -/
theorem lasting_mycrd : Lasting (@Remembers latest k v) := by
  intro x w reqs w' hs h
  refine ⟨?_, h.2⟩
  cases hs with
  | writeMyCRD k' o ho => exact Watched.past_set h.1 (h := ho)
  | writeDeployment => exact h.1
  | tellMyCRD => exact Watched.past_tell h.1
  | tellDeployment => exact h.1

theorem lasting_deployment {P : Held → World latest → Prop} (hP : Lasting P) :
    Lasting fun x w => w.deployments.Past k vd ∧ P x w := by
  intro x w reqs w' hs h
  refine ⟨?_, hP x w reqs w' hs h.2⟩
  cases hs with
  | writeMyCRD => exact h.1
  | writeDeployment k' o ho => exact Watched.past_set h.1 (h := ho)
  | tellMyCRD => exact h.1
  | tellDeployment => exact Watched.past_tell h.1

/-- What a run remembers is its own. -/
theorem lasting_held {P : Held → World latest → Prop} (hP : Lasting P) (H : Held → Prop) :
    Lasting fun x w => H x ∧ P x w :=
  fun x w reqs w' hs h => ⟨h.1, hP x w reqs w' hs h.2⟩

theorem respectful_status (hk : v.obj.key = k) :
    Respectful k (@Remembers latest k v)
      (reconcileStatus v.obj) := by
  subst hk
  have hstatus : ∃ next, reconcileStatus v.obj = .call (.getDeployment v.obj.deployKey) next ∧
      ∀ e, next (.error e) = .ret (.ok ()) := ⟨_, rfl, fun _ => rfl⟩
  obtain ⟨next, hcallStatus, herror⟩ := hstatus
  rw [hcallStatus]
  refine respectful_call fun x w r x' w' h hcall => ?_
  obtain ⟨hpast, hheld⟩ := h
  obtain ⟨rfl, hxw⟩ := serve_read rfl hcall
  cases hxw
  refine ⟨respects_refl _ w, ?_⟩
  cases hseen : (w.deployments.feed v.obj.deployKey).seen with
  | none =>
      have hget : w.cached.deployments.get v.obj.deployKey = none := cached_deployment hseen
      simp only [World.serve, apply_getDeployment_none hget, herror]
      exact ⟨fun _ _ => True, fun _ _ _ _ _ _ => trivial, trivial, respectful_ret _⟩
  | some vd =>
      have hget : w.cached.deployments.get v.obj.deployKey = some vd.obj := cached_deployment hseen
      have hkey : vd.obj.key = v.obj.deployKey := (w.cached.deployments.keyed _ _ hget).1
      obtain ⟨next', hcall', hfound⟩ := reconcileStatus_found hkey
      obtain rfl : next = next' := eq_of_heq (Prog.call.inj (hcallStatus.symm.trans hcall')).2
      simp only [World.serve, apply_getDeployment hget, hfound]
      refine ⟨fun x w => w.deployments.Past v.obj.deployKey vd ∧ Remembers v.obj.key v x w,
        lasting_deployment lasting_mycrd,
        ⟨Watched.past_seen hseen, hpast, hheld⟩, ?_⟩
      split
      · exact respectful_ret _
      · refine respectful_call fun x w r x' w' h hcall => ?_
        obtain ⟨hpastd, hpast, hheld⟩ := h
        refine ⟨?_, fun _ _ => True, fun _ _ _ _ _ _ => trivial, trivial, respectful_ret _⟩
        have hkey' : ({ v.obj with status := ⟨vd.obj.status.availableReplicas⟩ } : MyCRD).key =
          v.obj.key := rfl
        rcases serve_state hcall with heq | heq
        · cases heq
          exact respects_refl _ w
        · simp only [World.serve, hkey', hheld] at heq
          split at heq
          · cases heq
            exact respects_refl _ w
          · rename_i hconflict
            cases heq
            rw [Bool.not_eq_true] at hconflict
            cases hcur : (w.mycrds.feed v.obj.key).current with
            | none =>
                have hnone : w.cluster.mycrds.get v.obj.key = none := stored_mycrd hcur
                refine ⟨fun _ => Or.inl rfl, fun key => Or.inl ?_⟩
                rw [writeMyCRD_get]
                split
                · rename_i hk
                  simp only [apply, hkey', hnone, hk]
                · rfl
            | some v' =>
                obtain ⟨_, _, rfl⟩ := current_of_read hpast hcur hconflict
                exact respects_status rfl (stored_mycrd hcur) ⟨vd, hpastd, rfl⟩

/-- The child is stored, or not; the run goes on with the status, or ends. -/
theorem respectful_afterChild (hk : v.obj.key = k) (result : OperationResult)
    (r : Except ApiError Unit) :
    Respectful k (@Remembers latest k v)
      (.ret (report result r) >>= afterChild v.obj) := by
  cases r with
  | error e => exact respectful_ret _
  | ok u => exact respectful_status hk

/-- **A run, once the custom resource is read.** -/
theorem respectful_child (hk : v.obj.key = k) :
    Respectful k (@Remembers latest k v)
      (reconcileMyCRD v.obj) := by
  subst hk
  rw [reconcileMyCRD_call]
  refine respectful_call fun x w r x' w' h hcall => ?_
  obtain ⟨hpast, hheld⟩ := h
  obtain ⟨rfl, hxw⟩ := serve_read rfl hcall
  cases hxw
  refine ⟨respects_refl _ w, ?_⟩
  cases hseen : (w.deployments.feed v.obj.deployKey).seen with
  | none =>
      have hget : w.cached.deployments.get v.obj.deployKey = none := cached_deployment hseen
      simp only [World.serve, apply_getDeployment_none hget]
      rw [afterRead_absent, Prog.call_bind]
      refine ⟨_, lasting_mycrd, ⟨hpast, hheld⟩, ?_⟩
      refine respectful_call fun x w r x' w' h hcall => ?_
      obtain ⟨hpast, hheld⟩ := h
      have hrest := @respectful_afterChild latest v.obj.key v rfl .created r
      rcases serve_state hcall with heq | heq
      · cases heq
        exact ⟨respects_refl _ w, _, lasting_mycrd, ⟨hpast, hheld⟩, hrest⟩
      · cases heq
        exact ⟨respects_create rfl ⟨v, hpast, rfl⟩, _, lasting_mycrd, ⟨hpast, hheld⟩, hrest⟩
  | some vd =>
      have hget : w.cached.deployments.get v.obj.deployKey = some vd.obj := cached_deployment hseen
      obtain ⟨hkey, _, hdefault⟩ := w.cached.deployments.keyed _ _ hget
      simp only [World.serve, apply_getDeployment hget]
      rcases afterRead_found hkey hdefault with ⟨_, e, he⟩ | ⟨hf, hupdate⟩
      · rw [he]
        exact ⟨fun _ _ => True, fun _ _ _ _ _ _ => trivial, trivial, respectful_ret _⟩
      · rw [hupdate, Prog.call_bind]
        refine ⟨fun x w => x.deploy = some vd.rev ∧ w.deployments.Past v.obj.deployKey vd ∧
            Remembers v.obj.key v x w, lasting_held (lasting_deployment lasting_mycrd) _,
          ⟨by simp, Watched.past_seen hseen, hpast, hheld⟩, ?_⟩
        refine respectful_call fun x w r x' w' h hcall => ?_
        obtain ⟨hdeploy, hpastd, hpast, hheld⟩ := h
        have hrest := @respectful_afterChild latest v.obj.key v rfl .updated r
        rcases serve_state hcall with heq | heq
        · cases heq
          exact ⟨respects_refl _ w, _, lasting_mycrd, ⟨hpast, hheld⟩, hrest⟩
        · simp only [World.serve, mutated_key, hkey, hdeploy] at heq
          split at heq
          · cases heq
            exact ⟨respects_refl _ w, _, lasting_mycrd, ⟨hpast, hheld⟩, hrest⟩
          · rename_i hconflict
            cases heq
            rw [Bool.not_eq_true] at hconflict
            refine ⟨?_, _, lasting_mycrd, ⟨hpast, hheld⟩, hrest⟩
            cases hcur : (w.deployments.feed v.obj.deployKey).current with
            | none =>
                have hnone : w.cluster.deployments.get v.obj.deployKey = none := stored_deployment hcur
                refine respects_writeDeployment ⟨v, hpast, rfl⟩ (Or.inl ?_)
                simp only [apply, mutated_key, hkey, hnone]
            | some v' =>
                -- the child still has the version that was read
                obtain ⟨_, _, rfl⟩ := current_of_read hpastd hcur hconflict
                exact respects_update rfl ⟨v, hpast, rfl⟩ (stored_deployment hcur) hf

/-- **A run of `Reconcile`.** -/
theorem respectful_reconcile (k : Key) :
    @Respectful latest k (fun _ _ => True) (reconcile k) := by
  rw [reconcile_call]
  refine respectful_call fun x w r x' w' _ hcall => ?_
  obtain ⟨rfl, hxw⟩ := serve_read rfl hcall
  cases hxw
  refine ⟨respects_refl _ w, ?_⟩
  cases hseen : (w.mycrds.feed k).seen with
  | none =>
      have hget : w.cached.mycrds.get k = none := cached_mycrd hseen
      simp only [World.serve, apply_getMyCRD_none hget]
      exact ⟨fun _ _ => True, fun _ _ _ _ _ _ => trivial, trivial, respectful_ret _⟩
  | some v =>
      have hget : w.cached.mycrds.get k = some v.obj := cached_mycrd hseen
      simp only [World.serve, apply_getMyCRD hget]
      exact ⟨_, lasting_mycrd, ⟨Watched.past_seen hseen, by simp⟩,
        respectful_child (w.cached.mycrds.keyed k _ hget)⟩

/-! ## 3. Every state that is reached -/

/-- **No update is lost**: in every state that is reached, a call of a run for `k` changes the child and
    the status of the custom resource only, and starts from what the server has at that moment. -/
theorem call_respects {q : List Key} {next : Answer op → Program (Except Err Unit)} {r : Answer op}
    (h : ControlLoop.Reachable (operator latest) ⟨w, q, some ⟨k, x, .call op next⟩⟩)
    (hcall : (operator latest).call op (x, w) r (x', w')) : Respects k w w' :=
  ControlLoop.call_guar (G := fun k _ xw _ xw' => Respects k xw.2 xw'.2)
    (Q := fun _ _ _ _ _ => True)
    (fun k => (respectful_reconcile k).mono fun _ _ _ _ => trivial) h hcall

/-- The demo, before it has a child. -/
def newWorld : World fun _ => false := ⟨.of demoCluster.mycrds, .of demoCluster.deployments⟩

theorem newWorld_cluster : newWorld.cluster = demoCluster :=
  Cluster.ext (Watched.of_stored _) (Watched.of_stored _)

theorem newWorld_restart : Restart newWorld [demo.key] newWorld := by
  refine .list newWorld [demo.key] (fun k my hmy => ?_) fun k d r hd hr => ?_
  · rw [newWorld_cluster] at hmy
    by_cases hk : k = demo.key
    · exact List.mem_singleton.mpr hk
    · rw [show demoCluster.mycrds.get k = none from Function.update_of_ne hk ..] at hmy
      cases hmy
  · rw [newWorld_cluster] at hd
    cases hd

/-- A call that is answered as the server or the cache answers it. -/
theorem reached_call {q : List Key} {next : Answer op → Program (Except Err Unit)}
    (h : ControlLoop.Reachable (operator latest) ⟨w, q, some ⟨k, x, .call op next⟩⟩) :
    ControlLoop.Reachable (operator latest) ⟨(World.serve latest op (x, w)).2.2, q,
      some ⟨k, (World.serve latest op (x, w)).2.1, next (World.serve latest op (x, w)).1⟩⟩ :=
  h.step (.call _ _ _ _ _ _ _ _ _ Faulty.done)

/-- The run of the demo is about to create the child. -/
theorem create_reached : ∃ x next, ControlLoop.Reachable (operator fun _ => false)
    ⟨newWorld, [], some ⟨demo.key, x,
      .call (.createDeployment (mutated demo (frame demo))) next⟩⟩ := by
  have hboot := ControlLoop.Reachable.boot (S := operator fun _ => false) newWorld_restart
  have hstart := hboot.step (.start newWorld [demo.key] demo.key (List.mem_singleton_self _))
  have hfilter : [demo.key].filter (· ≠ demo.key) = [] := by simp
  rw [hfilter] at hstart
  have hread := reached_call hstart
  have hnext := reached_call hread
  have hcreate : afterRead demo (.error .notFound) >>= afterChild demo =
      .call (.createDeployment (mutated demo (frame demo)))
        fun r => .ret (report .created r) >>= afterChild demo := by
    rw [afterRead_absent, Prog.call_bind]
  have hreached : ControlLoop.Reachable (operator fun _ => false) ⟨newWorld, [],
      some ⟨demo.key, ⟨some 0, none⟩, afterRead demo (.error .notFound) >>= afterChild demo⟩⟩ := hnext
  rw [hcreate] at hreached
  exact ⟨_, _, hreached⟩

/-! The demo beside its child, which somebody scales while a run has already read it. -/

def demoChild : Deployment := asCreated (fun _ => false) demo

def scaledChild : Deployment :=
  { demoChild with spec := { demoChild.spec with replicas := some 5 } }

theorem scaledChild_keyed : scaledChild.key = demo.deployKey ∧ scaledChild.valid = true ∧
    scaledChild.setDefaults (fun _ => false) = scaledChild := by decide +kernel

theorem demoChild_foreign : foreign demo demoChild = false := mutated_not_foreign frame_not_foreign

theorem demoChild_defaults : demoChild.setDefaults (fun _ => false) = demoChild := by decide +kernel

def scaledWorld : World fun _ => false :=
  { demoWorld with
    deployments := demoWorld.deployments.set demo.deployKey (some scaledChild)
      fun _ hd => Option.some.inj hd ▸ scaledChild_keyed }

/-- What the run of the demo has read: the versions before the scaling. -/
def staleHeld : Held := ⟨some 0, some 0⟩

/-- The run is about to send an update that it has made from the child before the scaling. -/
theorem update_reached : ∃ next, ControlLoop.Reachable (operator fun _ => false)
    ⟨scaledWorld, [], some ⟨demo.key, staleHeld,
      .call (.updateDeployment (mutated demo demoChild)) next⟩⟩ := by
  have hboot := ControlLoop.Reachable.boot (S := operator fun _ => false) demo_restart
  have hstart := hboot.step (.start demoWorld [demo.key] demo.key (List.mem_singleton_self _))
  have hfilter : [demo.key].filter (· ≠ demo.key) = [] := by simp
  rw [hfilter] at hstart
  have hread := reached_call (reached_call hstart)
  have hupdate : ∃ next, afterRead demo (.ok ⟨demoChild, rfl⟩) >>= afterChild demo =
      .call (.updateDeployment (mutated demo demoChild)) next := by
    have hkey : demoChild.key = demo.deployKey := rfl
    rcases afterRead_found hkey demoChild_defaults with ⟨hf, _⟩ | ⟨_, hcall⟩
    · exact absurd (hf.symm.trans demoChild_foreign) Bool.noConfusion
    · exact ⟨_, by rw [hcall, Prog.call_bind]⟩
  obtain ⟨next, hnext⟩ := hupdate
  have hreached : ControlLoop.Reachable (operator fun _ => false) ⟨demoWorld, [],
      some ⟨demo.key, staleHeld, afterRead demo (.ok ⟨demoChild, rfl⟩) >>= afterChild demo⟩⟩ := hread
  rw [hnext] at hreached
  exact ⟨next, hreached.step (.others _ _ _ [] _ (.writeDeployment demoWorld demo.deployKey _ _))⟩

/-- The server has another version than the run has read. -/
theorem update_refused : World.serve (fun _ => false) (.updateDeployment (mutated demo demoChild))
    (staleHeld, scaledWorld) = (.error modified, staleHeld, scaledWorld) := by
  have hconflict : conflicts staleHeld.deploy
      (scaledWorld.deployments.feed (mutated demo demoChild).key).current = true := by decide +kernel
  rw [World.serve, if_pos hconflict]

theorem scaledWorld_child : scaledWorld.cluster.deployments.get demo.deployKey = some scaledChild := by
  decide +kernel

/-- The child is created; and the late update, which would have undone the scaling, leaves it. -/
theorem call_respects_demo : Respects demo.key newWorld
      (newWorld.writeDeployment (.createDeployment (mutated demo (frame demo))) demo.deployKey) ∧
    ∃ w, World.serve (fun _ => false) (.updateDeployment (mutated demo demoChild))
        (staleHeld, scaledWorld) = (.error modified, staleHeld, w) ∧ Respects demo.key scaledWorld w ∧
      w.cluster.deployments.get demo.deployKey = some scaledChild := by
  obtain ⟨x, next, hcreate⟩ := create_reached
  obtain ⟨next', hupdate⟩ := update_reached
  have hcall : (operator fun _ => false).call (.updateDeployment (mutated demo demoChild))
      (staleHeld, scaledWorld) (.error modified) (staleHeld, scaledWorld) := by
    have hdone := @Faulty.done _ _ _ (World.serve fun _ => false) WriteFailed
      (.updateDeployment (mutated demo demoChild)) (staleHeld, scaledWorld)
    rwa [update_refused] at hdone
  exact ⟨call_respects hcreate Faulty.done, scaledWorld, update_refused,
    call_respects hupdate hcall, scaledWorld_child⟩

end Operator
