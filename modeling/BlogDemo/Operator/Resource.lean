/-
  File:      BlogDemo/Operator/Resource.lean
  Subject:   ONE CUSTOM RESOURCE IN THE LOOP: what the operator does for it, as an automaton over its
             two objects, while it is busy with others and everybody else goes on.

  * `Pos` -- where a run of `Reconcile` is, with what it has read;
    **`reachable_at`** -- in every state that is reached the run is at such a place;
  * `Calm` -- a step in which nobody else writes the two objects, no call for them fails and the
    operator does not restart;
  * `View`, `View.Step` -- the automaton; **`calm_view`** -- it simulates every calm step.
-/
import BlogDemo.Operator.Loop

namespace Operator

open Atomic Kube

variable {latest : String → Bool} {my : MyCRD} {d : Deployment} {k : Key}

/-! ## 1. Where a run is -/

/-- **Where a run is**, with the versions it goes by. -/
inductive Pos where
  | begin
  | child (my : Version MyCRD)
  | create (my : Version MyCRD)
  | update (my : Version MyCRD) (d : Version Deployment)
  | fresh (my : Version MyCRD)
  | setStatus (my : Version MyCRD) (available : Int32)
  | finished (r : Except Err Unit)

/-- What is left to do for `k`. -/
def Pos.rest (k : Key) : Pos → Program (Except Err Unit)
  | .begin => reconcile k
  | .child my => reconcileMyCRD my.obj
  | .create my => .call (.createDeployment (mutated my.obj (frame my.obj))) fun r =>
      afterChild my.obj (report .created r)
  | .update my d => .call (.updateDeployment (mutated my.obj d.obj)) fun r =>
      afterChild my.obj (report .updated r)
  | .fresh my => reconcileStatus my.obj
  | .setStatus my available => .call (.updateStatus { my.obj with status := ⟨available⟩ }) fun r =>
      .ret (afterStatus r)
  | .finished r => .ret r

/-- The run goes by this version of the custom resource. -/
def Goes (k : Key) (x : Held) (my : Version MyCRD) : Prop :=
  my.obj.key = k ∧ x.mycrd = some my.rev

/-- **What the run knows there.** -/
def Pos.Holds (k : Key) (x : Held) (w : World latest) : Pos → Prop
  | .begin => True
  | .child my => Goes k x my
  | .create my => Goes k x my
  | .update my d => Goes k x my ∧ d.obj.key = childKey k ∧ foreign my.obj d.obj = false ∧
      x.deploy = some d.rev ∧ w.deployments.Past (childKey k) d
  | .fresh my => Goes k x my
  | .setStatus my _ => Goes k x my
  | .finished _ => True

/-- What a run knows stays so while the world changes as `past` says. -/
theorem Pos.Holds.world {p : Pos} {x : Held} {w w' : World latest} (h : p.Holds k x w)
    (hpast : ∀ d, w.deployments.Past (childKey k) d → w'.deployments.Past (childKey k) d) :
    p.Holds k x w' := by
  cases p with
  | update my d =>
      obtain ⟨hgoes, hkey, hf, hx, hd⟩ := h
      exact ⟨hgoes, hkey, hf, hx, hpast d hd⟩
  | begin => trivial
  | child my => exact h
  | create my => exact h
  | fresh my => exact h
  | setStatus my a => exact h
  | finished r => trivial

/-! ## 2. The automaton -/

/-- What `mutate` makes of the child, as the server stores it. -/
abbrev wanted (latest : String → Bool) (my : MyCRD) (d : Deployment) : Deployment :=
  (mutated my d).setDefaults latest

/-- **A call of the run**, by what it does to the custom resource and to its child. -/
inductive Move (latest : String → Bool) (k : Key) (m : Feed MyCRD) (c : Feed Deployment) :
    Pos → Pos → Feed MyCRD → Feed Deployment → Prop where
  | gone (h : m.seen = none) : Move latest k m c .begin (.finished (.ok ())) m c
  | read (my : Version MyCRD) (h : m.seen = some my) : Move latest k m c .begin (.child my) m c
  | absent (my : Version MyCRD) (h : c.seen = none) : Move latest k m c (.child my) (.create my) m c
  | refused (my : Version MyCRD) (d : Version Deployment) (e : Err) (h : c.seen = some d)
      (hf : foreign my.obj d.obj = true) : Move latest k m c (.child my) (.finished (.error e)) m c
  | found (my : Version MyCRD) (d : Version Deployment) (h : c.seen = some d) :
      Move latest k m c (.child my) (.update my d) m c
  | created (my : Version MyCRD) (rev : Nat) (hk : my.obj.key = k) (h : c.current = none) :
      Move latest k m c (.create my) (.fresh my) m
        (c.push (some ⟨rev, wanted latest my.obj (frame my.obj)⟩))
  | notCreated (my : Version MyCRD) (e : Err)
      (h : c.current ≠ none ∨ (mutated my.obj (frame my.obj)).valid = false) :
      Move latest k m c (.create my) (.finished (.error e)) m c
  | updated (my : Version MyCRD) (d : Version Deployment) (rev : Nat) (hk : my.obj.key = k)
      (hf : foreign my.obj d.obj = false) (h : c.current = some d)
      (hne : wanted latest my.obj d.obj ≠ d.obj) :
      Move latest k m c (.update my d) (.fresh my) m
        (c.push (some ⟨rev, wanted latest my.obj d.obj⟩))
  | unchanged (my : Version MyCRD) (d : Version Deployment) (h : c.current = some d)
      (hsame : wanted latest my.obj d.obj = d.obj) :
      Move latest k m c (.update my d) (.fresh my) m c
  | notUpdated (my : Version MyCRD) (d : Version Deployment) (e : Err)
      (h : c.current ≠ some d ∨ (mutated my.obj d.obj).valid = false) :
      Move latest k m c (.update my d) (.finished (.error e)) m c
  | lost (my : Version MyCRD) (h : c.seen = none) :
      Move latest k m c (.fresh my) (.finished (.ok ())) m c
  | same (my : Version MyCRD) (d : Version Deployment) (h : c.seen = some d)
      (hsame : my.obj.status.availableReplicas = d.obj.status.availableReplicas) :
      Move latest k m c (.fresh my) (.finished (.ok ())) m c
  | differs (my : Version MyCRD) (d : Version Deployment) (h : c.seen = some d) :
      Move latest k m c (.fresh my) (.setStatus my d.obj.status.availableReplicas) m c
  | reported (my cur : Version MyCRD) (available : Int32) (rev : Nat) (h : m.current = some cur)
      (hne : cur.obj.status ≠ ⟨available⟩) :
      Move latest k m c (.setStatus my available) (.finished (.ok ()))
        (m.push (some ⟨rev, { cur.obj with status := ⟨available⟩ }⟩)) c
  | repeated (my cur : Version MyCRD) (available : Int32) (h : m.current = some cur)
      (hsame : cur.obj.status = ⟨available⟩) :
      Move latest k m c (.setStatus my available) (.finished (.ok ())) m c
  | notReported (my : Version MyCRD) (available : Int32) (e : Err) (h : m.current ≠ some my) :
      Move latest k m c (.setStatus my available) (.finished (.error e)) m c

/-- **The loop, as far as it is about one custom resource**: its object, the child, whether the
    request is queued, and where the run for it is, if there is one. -/
structure View where
  mycrd : Feed MyCRD
  child : Feed Deployment
  queued : Bool
  pos : Option Pos

/-- **A step of the automaton.** The request may be queued at any time. -/
inductive View.Step (latest : String → Bool) (k : Key) : View → View → Prop where
  | queue (v : View) (queued : Bool) (hq : v.queued = true → queued = true) :
      View.Step latest k v { v with queued := queued }
  | tellMyCRD (v : View) (hp : v.mycrd.pending ≠ []) :
      View.Step latest k v { v with mycrd := v.mycrd.tell, queued := true }
  | tellChild (v : View) (queued : Bool) (hp : v.child.pending ≠ [])
      (hq : v.queued = true → queued = true) :
      View.Step latest k v { v with child := v.child.tell, queued := queued }
  | start (v : View) (hq : v.queued = true) (hp : v.pos = none) :
      View.Step latest k v { v with queued := false, pos := some .begin }
  | move (v : View) (p p' : Pos) (m : Feed MyCRD) (c : Feed Deployment) (hp : v.pos = some p)
      (hm : Move latest k v.mycrd v.child p p' m c) :
      View.Step latest k v { v with mycrd := m, child := c, pos := some p' }
  | done (v : View) (hp : v.pos = some (.finished (.ok ()))) :
      View.Step latest k v { v with pos := none }
  | retry (v : View) (e : Err) (hp : v.pos = some (.finished (.error e))) :
      View.Step latest k v { v with pos := none, queued := true }

/-! ## 3. A call of the run is one of the automaton -/

section Calls

variable {w w' : World latest} {x x' : Held} {op : ApiCall} {rest : Program (Except Err Unit)}
  {next : Answer op → Program (Except Err Unit)}

/-- The run goes on from `p` with `rest`, and the automaton does so. -/
def GoesOn (k : Key) (p : Pos) (w : World latest) (rest : Program (Except Err Unit)) (x' : Held)
    (w' : World latest) : Prop :=
  ∃ p' : Pos, rest = p'.rest k ∧ p'.Holds k x' w' ∧
    Move latest k (w.mycrds.feed k) (w.deployments.feed (childKey k)) p p' (w'.mycrds.feed k)
      (w'.deployments.feed (childKey k))

/-- The call is answered by the server or the caches, as it should be. -/
abbrev Served (k : Key) (p : Pos) (op : ApiCall) (next : Answer op → Program (Except Err Unit))
    (x : Held) (w : World latest) : Prop :=
  GoesOn k p w (next (World.serve latest op (x, w)).1) (World.serve latest op (x, w)).2.1
    (World.serve latest op (x, w)).2.2

theorem begin_served (hrest : Pos.begin.rest k = .call op next) : Served k .begin op next x w := by
  rw [Pos.rest, reconcile_call] at hrest
  cases hrest
  cases hseen : (w.mycrds.feed k).seen with
  | none =>
      have hget : w.cached.mycrds.get k = none := cached_mycrd hseen
      simp only [Served, World.serve, apply_getMyCRD_none hget]
      exact ⟨.finished (.ok ()), rfl, trivial, .gone hseen⟩
  | some v =>
      have hget : w.cached.mycrds.get k = some v.obj := cached_mycrd hseen
      simp only [Served, World.serve, apply_getMyCRD hget]
      refine ⟨.child v, rfl, ⟨w.cached.mycrds.keyed k _ hget, ?_⟩, .read v hseen⟩
      rw [hseen]
      rfl

theorem child_served {my : Version MyCRD} (hgoes : Goes k x my)
    (hrest : (Pos.child my).rest k = .call op next) : Served k (.child my) op next x w := by
  rw [Pos.rest, reconcileMyCRD_call] at hrest
  cases hrest
  obtain ⟨hk, hx⟩ := hgoes
  have hdk : my.obj.deployKey = childKey k := hk ▸ deployKey_key
  cases hseen : (w.deployments.feed (childKey k)).seen with
  | none =>
      have hget : w.cached.deployments.get my.obj.deployKey = none := hdk ▸ cached_deployment hseen
      simp only [Served, World.serve, apply_getDeployment_none hget]
      rw [afterRead_absent, Prog.call_bind]
      exact ⟨.create my, rfl, ⟨hk, hx⟩, .absent my hseen⟩
  | some v =>
      have hget : w.cached.deployments.get my.obj.deployKey = some v.obj :=
        hdk ▸ cached_deployment hseen
      obtain ⟨hkey, _, hdefault⟩ := w.cached.deployments.keyed _ _ hget
      simp only [Served, World.serve, apply_getDeployment hget]
      rcases afterRead_found hkey hdefault with ⟨hf, e, he⟩ | ⟨hf, hupdate⟩
      · rw [he]
        exact ⟨.finished (.error e), rfl, trivial, .refused my v e hseen hf⟩
      · rw [hupdate, Prog.call_bind]
        refine ⟨.update my v, rfl, ⟨⟨hk, hx⟩, hkey.trans hdk, hf, ?_, Watched.past_seen hseen⟩,
          .found my v hseen⟩
        rw [hdk, hseen]
        rfl

/-- What the server has is written. -/
theorem stored_current {K V : Type} {key : V → K → Prop} {s : Watched K V key} {k : K} {a : V}
    (h : s.stored.get k = some a) : ∃ v, (s.feed k).current = some v ∧ v.obj = a := by
  rw [Watched.stored_get] at h
  exact Option.map_eq_some_iff.mp h

theorem stored_current_none {K V : Type} {key : V → K → Prop} {s : Watched K V key} {k : K}
    (h : s.stored.get k = none) : (s.feed k).current = none :=
  Option.map_eq_none_iff.mp h

/-- A write that leaves the child as it is. -/
theorem writeDeployment_same {key : Key} (h : (apply latest op w.cluster).2.deployments.get key =
    w.cluster.deployments.get key) : w.writeDeployment op key = w := by
  rw [World.writeDeployment, Watched.set_same]
  exact h.symm

theorem writeMyCRD_same {key : Key} (h : (apply latest op w.cluster).2.mycrds.get key =
    w.cluster.mycrds.get key) : w.writeMyCRD op key = w := by
  rw [World.writeMyCRD, Watched.set_same]
  exact h.symm

/-- A write of another child. -/
theorem writeDeployment_feed {key : Key} {d : Deployment}
    (hd : (apply latest op w.cluster).2.deployments.get key = some d)
    (hne : w.cluster.deployments.get key ≠ some d) :
    (w.writeDeployment op key).deployments.feed key =
      (w.deployments.feed key).push (some ⟨w.deployments.next, d⟩) := by
  rw [World.writeDeployment]
  simp only
  rw [Watched.set_feed _ (by rw [hd]; exact hne), if_pos rfl, hd]
  rfl

theorem writeMyCRD_feed {key : Key} {my : MyCRD}
    (hmy : (apply latest op w.cluster).2.mycrds.get key = some my)
    (hne : w.cluster.mycrds.get key ≠ some my) :
    (w.writeMyCRD op key).mycrds.feed key =
      (w.mycrds.feed key).push (some ⟨w.mycrds.next, my⟩) := by
  rw [World.writeMyCRD]
  simp only
  rw [Watched.set_feed _ (by rw [hmy]; exact hne), if_pos rfl, hmy]
  rfl

theorem create_served {my : Version MyCRD} (hgoes : Goes k x my)
    (hrest : (Pos.create my).rest k = .call op next) : Served k (.create my) op next x w := by
  rw [Pos.rest] at hrest
  cases hrest
  obtain ⟨hk, hx⟩ := hgoes
  have hdk : my.obj.deployKey = childKey k := hk ▸ deployKey_key
  have hkey : (mutated my.obj (frame my.obj)).key = my.obj.deployKey := rfl
  -- a refused creation leaves everything as it is
  have hrefused : ∀ e, apply latest (.createDeployment (mutated my.obj (frame my.obj))) w.cluster =
      (.error e, w.cluster) →
      ((w.deployments.feed (childKey k)).current ≠ none ∨
        (mutated my.obj (frame my.obj)).valid = false) →
      Served k (.create my) (.createDeployment (mutated my.obj (frame my.obj)))
        (fun r => afterChild my.obj (report .created r)) x w := by
    intro e happly hwhy
    simp only [Served, World.serve]
    rw [writeDeployment_same (by rw [happly]), happly]
    exact ⟨.finished (.error (.api e)), rfl, trivial, .notCreated my (.api e) hwhy⟩
  cases hstored : w.cluster.deployments.get my.obj.deployKey with
  | some d =>
      obtain ⟨v, hv, _⟩ := stored_current (hdk ▸ hstored)
      have hcur : (w.deployments.feed (childKey k)).current ≠ none := by
        rw [hv]
        exact Option.some_ne_none v
      by_cases hvalid : (mutated my.obj (frame my.obj)).valid = true
      · refine hrefused .alreadyExists ?_ (Or.inl hcur)
        simp only [apply, hkey, hstored]
        exact dif_pos hvalid
      · refine hrefused .invalid ?_ (Or.inl hcur)
        simp only [apply, hkey, hstored]
        exact dif_neg hvalid
  | none =>
      by_cases ha : Accepted my.obj w.cluster
      · have happly := apply_create hstored
        rw [dif_pos ha] at happly
        have hafter : (apply latest (.createDeployment (mutated my.obj (frame my.obj)))
            w.cluster).2.deployments.get (childKey k) = some (wanted latest my.obj (frame my.obj)) := by
          rw [happly, ← hdk]
          exact (written_child ha).trans (by rw [base_none hstored])
        simp only [Served, World.serve]
        rw [hkey, hdk, happly]
        refine ⟨.fresh my, rfl, ⟨hk, hx⟩, ?_⟩
        have hne : w.cluster.deployments.get (childKey k) ≠
            some (wanted latest my.obj (frame my.obj)) := by
          rw [← hdk, hstored]
          exact (Option.some_ne_none _).symm
        rw [writeDeployment_feed hafter hne]
        exact .created my _ hk (stored_current_none (hdk ▸ hstored))
      · refine hrefused .invalid ?_ (Or.inr ?_)
        · rw [apply_create hstored, dif_neg ha]
        · rw [Accepted, base_none hstored, Bool.not_eq_true] at ha
          exact ha

theorem update_served {my : Version MyCRD} {d : Version Deployment}
    (hholds : (Pos.update my d).Holds k x w)
    (hrest : (Pos.update my d).rest k = .call op next) : Served k (.update my d) op next x w := by
  rw [Pos.rest] at hrest
  cases hrest
  obtain ⟨⟨hk, hx⟩, hdkey, hf, hdeploy, hpast⟩ := hholds
  have hdk : my.obj.deployKey = childKey k := hk ▸ deployKey_key
  -- a refused update leaves everything as it is
  have hrefused : ∀ e, World.serve latest (.updateDeployment (mutated my.obj d.obj)) (x, w) =
      (.error e, (x, w)) →
      ((w.deployments.feed (childKey k)).current ≠ some d ∨ (mutated my.obj d.obj).valid = false) →
      Served k (.update my d) (.updateDeployment (mutated my.obj d.obj))
        (fun r => afterChild my.obj (report .updated r)) x w := by
    intro e hserve hwhy
    simp only [Served]
    rw [hserve]
    exact ⟨.finished (.error (.api e)), rfl, trivial, .notUpdated my d (.api e) hwhy⟩
  have hfree : conflicts x.deploy (w.deployments.feed (childKey k)).current = false →
      World.serve latest (.updateDeployment (mutated my.obj d.obj)) (x, w) =
        ((apply latest (.updateDeployment (mutated my.obj d.obj)) w.cluster).1,
          (x, w.writeDeployment (.updateDeployment (mutated my.obj d.obj)) (childKey k))) := by
    intro h
    simp only [World.serve, mutated_key, hdkey, h]
    rfl
  cases hcur : (w.deployments.feed (childKey k)).current with
  | none =>
      have hnone : w.cluster.deployments.get (childKey k) = none := stored_deployment hcur
      have happly : apply latest (.updateDeployment (mutated my.obj d.obj)) w.cluster =
          (.error .notFound, w.cluster) := by
        simp only [apply, mutated_key, hdkey, hnone]
      refine hrefused .notFound ?_ (Or.inl (by rw [hcur]; exact (Option.some_ne_none d).symm))
      rw [hfree (by rw [hcur, hdeploy]; rfl), writeDeployment_same (by rw [happly]), happly]
  | some v =>
      by_cases hconflict : conflicts x.deploy (w.deployments.feed (childKey k)).current = true
      · have hne : v ≠ d := by
          rintro rfl
          rw [hdeploy, hcur] at hconflict
          simp [conflicts] at hconflict
        refine hrefused modified ?_ (Or.inl ?_)
        · simp only [World.serve, mutated_key, hdkey, hconflict, if_true]
        · rw [hcur]
          exact fun h => hne (Option.some.inj h)
      · rw [Bool.not_eq_true] at hconflict
        obtain ⟨_, _, rfl⟩ := current_of_read hpast hcur (hdeploy ▸ hconflict)
        have hstored : w.cluster.deployments.get my.obj.deployKey = some v.obj :=
          hdk ▸ stored_deployment hcur
        have happly := apply_update hstored
        by_cases ha : Accepted my.obj w.cluster
        · rw [dif_pos ha] at happly
          have hafter : (apply latest (.updateDeployment (mutated my.obj v.obj))
              w.cluster).2.deployments.get (childKey k) = some (wanted latest my.obj v.obj) := by
            rw [happly, ← hdk]
            exact (written_child ha).trans (by rw [base_some hstored])
          simp only [Served]
          rw [hfree hconflict, happly]
          refine ⟨.fresh my, rfl, ⟨hk, hx⟩, ?_⟩
          by_cases hsame : wanted latest my.obj v.obj = v.obj
          · rw [writeDeployment_same (by rw [hafter, hsame, ← hdk, hstored])]
            exact .unchanged my v hcur hsame
          · rw [writeDeployment_feed hafter fun h => hsame (Option.some.inj (h.symm.trans
              (hdk ▸ hstored)))]
            exact .updated my v _ hk hf hcur hsame
        · rw [dif_neg ha] at happly
          refine hrefused .invalid ?_ (Or.inr ?_)
          · rw [hfree hconflict, writeDeployment_same (by rw [happly]), happly]
          · rw [Accepted, base_some hstored, Bool.not_eq_true] at ha
            exact ha

theorem fresh_served {my : Version MyCRD} (hgoes : Goes k x my)
    (hrest : (Pos.fresh my).rest k = .call op next) : Served k (.fresh my) op next x w := by
  obtain ⟨hk, hx⟩ := hgoes
  have hdk : my.obj.deployKey = childKey k := hk ▸ deployKey_key
  cases hseen : (w.deployments.feed (childKey k)).seen with
  | none =>
      have hget : w.cached.deployments.get my.obj.deployKey = none := hdk ▸ cached_deployment hseen
      rw [Pos.rest, reconcileStatus, Prog.send_bind] at hrest
      cases hrest
      simp only [Served, World.serve, apply_getDeployment_none hget]
      exact ⟨.finished (.ok ()), rfl, trivial, .lost my hseen⟩
  | some v =>
      have hget : w.cached.deployments.get my.obj.deployKey = some v.obj :=
        hdk ▸ cached_deployment hseen
      obtain ⟨hkey, _, _⟩ := w.cached.deployments.keyed _ _ hget
      obtain ⟨next', hcall, hnext⟩ := reconcileStatus_found hkey
      rw [Pos.rest, hcall] at hrest
      cases hrest
      simp only [Served, World.serve, apply_getDeployment hget, hnext]
      split
      · rename_i hsame
        exact ⟨.finished (.ok ()), rfl, trivial, .same my v hseen hsame⟩
      · exact ⟨.setStatus my v.obj.status.availableReplicas, rfl, ⟨hk, hx⟩, .differs my v hseen⟩

theorem setStatus_served {my : Version MyCRD} {available : Int32} (hgoes : Goes k x my)
    (hrest : (Pos.setStatus my available).rest k = .call op next) :
    Served k (.setStatus my available) op next x w := by
  rw [Pos.rest] at hrest
  cases hrest
  obtain ⟨hk, hx⟩ := hgoes
  have hkey : ({ my.obj with status := ⟨available⟩ } : MyCRD).key = k := hk
  have hrefused : ∀ e, World.serve latest (.updateStatus { my.obj with status := ⟨available⟩ })
      (x, w) = (.error e, (x, w)) → (w.mycrds.feed k).current ≠ some my →
      Served k (.setStatus my available) (.updateStatus { my.obj with status := ⟨available⟩ })
        (fun r => .ret (afterStatus r)) x w := by
    intro e hserve hwhy
    simp only [Served]
    rw [hserve]
    exact ⟨.finished (.error (.api e)), rfl, trivial, .notReported my available (.api e) hwhy⟩
  have hfree : conflicts x.mycrd (w.mycrds.feed k).current = false →
      World.serve latest (.updateStatus { my.obj with status := ⟨available⟩ }) (x, w) =
        ((apply latest (.updateStatus { my.obj with status := ⟨available⟩ }) w.cluster).1,
          (x, w.writeMyCRD (.updateStatus { my.obj with status := ⟨available⟩ }) k)) := by
    intro h
    simp only [World.serve, hkey, h]
    rfl
  cases hcur : (w.mycrds.feed k).current with
  | none =>
      have hnone : w.cluster.mycrds.get k = none := stored_mycrd hcur
      have happly : apply latest (.updateStatus { my.obj with status := ⟨available⟩ }) w.cluster =
          (.error .notFound, w.cluster) := by
        simp only [apply, hkey, hnone]
      refine hrefused .notFound ?_ (by rw [hcur]; exact (Option.some_ne_none my).symm)
      rw [hfree (by rw [hcur, hx]; rfl), writeMyCRD_same (by rw [happly]), happly]
  | some cur =>
      by_cases hconflict : conflicts x.mycrd (w.mycrds.feed k).current = true
      · have hne : cur ≠ my := by
          rintro rfl
          rw [hx, hcur] at hconflict
          simp [conflicts] at hconflict
        refine hrefused modified ?_ ?_
        · simp only [World.serve, hkey, hconflict, if_true]
        · rw [hcur]
          exact fun h => hne (Option.some.inj h)
      · rw [Bool.not_eq_true] at hconflict
        have hstored : w.cluster.mycrds.get k = some cur.obj := stored_mycrd hcur
        have happly : apply latest (.updateStatus { my.obj with status := ⟨available⟩ }) w.cluster =
            (.ok (), w.cluster.putMyCRD { cur.obj with status := ⟨available⟩ }) := by
          simp only [apply, hkey, hstored]
        have hcurkey : ({ cur.obj with status := ⟨available⟩ } : MyCRD).key = k :=
          (w.cluster.mycrds.keyed k cur.obj hstored : cur.obj.key = k)
        have hafter : (apply latest (.updateStatus { my.obj with status := ⟨available⟩ })
            w.cluster).2.mycrds.get k = some { cur.obj with status := ⟨available⟩ } := by
          rw [happly, Cluster.putMyCRD_get, hcurkey, if_pos rfl]
        simp only [Served]
        rw [hfree hconflict]
        refine ⟨.finished (.ok ()), by rw [happly]; rfl, trivial, ?_⟩
        by_cases hsame : cur.obj.status = ⟨available⟩
        · have hobj : ({ cur.obj with status := ⟨available⟩ } : MyCRD) = cur.obj := by
            rw [← hsame]
          rw [writeMyCRD_same (by rw [hafter, hobj, hstored])]
          exact .repeated my cur available hcur hsame
        · rw [writeMyCRD_feed hafter fun h => hsame ?_]
          · exact .reported my cur available _ hcur hsame
          · rw [hstored, Option.some.injEq] at h
            exact congrArg MyCRD.status h

/-- **A call of the run is one of the automaton.** -/
theorem pos_served {p : Pos} (hholds : p.Holds k x w) (hrest : p.rest k = .call op next) :
    Served k p op next x w := by
  cases p with
  | begin => exact begin_served hrest
  | child my => exact child_served hholds hrest
  | create my => exact create_served hholds hrest
  | update my d => exact update_served hholds hrest
  | fresh my => exact fresh_served hholds hrest
  | setStatus my available => exact setStatus_served hholds hrest
  | finished r => cases hrest

/-- A call that fails is the last one of the run. -/
theorem pos_failed {p : Pos} (hrest : p.rest k = .call op next) (hwrite : op.isWrite = true)
    (m : String) : ∃ r, next (.error (.failed m)) = (Pos.finished r).rest k := by
  cases p with
  | begin =>
      rw [Pos.rest, reconcile_call] at hrest
      cases hrest
      cases hwrite
  | child my =>
      rw [Pos.rest, reconcileMyCRD_call] at hrest
      cases hrest
      cases hwrite
  | create my =>
      cases hrest
      exact ⟨_, rfl⟩
  | update my d =>
      cases hrest
      exact ⟨_, rfl⟩
  | fresh my =>
      rw [Pos.rest, reconcileStatus, Prog.send_bind] at hrest
      cases hrest
      cases hwrite
  | setStatus my available =>
      cases hrest
      exact ⟨_, rfl⟩
  | finished r => cases hrest

/-- A run for `k` writes its custom resource and its child only. -/
theorem pos_writes {p : Pos} (hholds : p.Holds k x w) (hrest : p.rest k = .call op next) :
    (World.serve latest op (x, w)).2.2 = w ∨
      (World.serve latest op (x, w)).2.2 = w.writeDeployment op (childKey k) ∨
      (World.serve latest op (x, w)).2.2 = w.writeMyCRD op k := by
  cases p with
  | begin =>
      rw [Pos.rest, reconcile_call] at hrest
      cases hrest
      exact Or.inl rfl
  | child my =>
      rw [Pos.rest, reconcileMyCRD_call] at hrest
      cases hrest
      exact Or.inl rfl
  | create my =>
      cases hrest
      exact Or.inr (Or.inl (by rw [← hholds.1]; rfl))
  | update my d =>
      cases hrest
      simp only [World.serve]
      split
      · exact Or.inl rfl
      · exact Or.inr (Or.inl (by rw [mutated_key, hholds.2.1]))
  | fresh my =>
      rw [Pos.rest, reconcileStatus, Prog.send_bind] at hrest
      cases hrest
      exact Or.inl rfl
  | setStatus my available =>
      cases hrest
      simp only [World.serve]
      split
      · exact Or.inl rfl
      · exact Or.inr (Or.inr (by rw [← hholds.1]; rfl))
  | finished r => cases hrest

end Calls

/-! ## 4. Every state that is reached -/

/-- A version that was read stays in the past. -/
theorem past_others {w w' : World latest} {reqs : List Key} (hs : Others w reqs w') {key : Key}
    {v : Version Deployment} (h : w.deployments.Past key v) : w'.deployments.Past key v := by
  cases hs with
  | writeMyCRD => exact h
  | writeDeployment k' o ho => exact Watched.past_set h (h := ho)
  | tellMyCRD => exact h
  | tellDeployment => exact Watched.past_tell h

/-- The worker is at a place of its run. -/
def AtPos (st : Loop latest) : Prop :=
  ∀ wk, st.worker = some wk → ∃ p : Pos, wk.rest = p.rest wk.req ∧ p.Holds wk.req wk.mem st.store

/-- What a call of the run makes of it, whether it fails or not. -/
theorem pos_call {p : Pos} {x x' : Held} {w w' : World latest} {op : ApiCall}
    {next : Answer op → Program (Except Err Unit)} {r : Answer op} (hholds : p.Holds k x w)
    (hrest : p.rest k = .call op next) (hcall : (operator latest).call op (x, w) r (x', w')) :
    ∃ p' : Pos, next r = p'.rest k ∧ p'.Holds k x' w' := by
  rcases hcall.answer with ⟨rfl, hxw⟩ | ⟨_, hwrite, m, rfl⟩
  · obtain ⟨p', hnext, hholds', _⟩ := pos_served hholds hrest
    rw [← hxw] at hholds'
    exact ⟨p', hnext, hholds'⟩
  · obtain ⟨r, hr⟩ := pos_failed hrest hwrite m
    exact ⟨.finished r, hr, trivial⟩

/-- **In every state that is reached the run is at one of its places**, and holds what is known
    there. -/
theorem reachable_at {st : Loop latest} (h : ControlLoop.Reachable (operator latest) st) :
    AtPos st := by
  induction h with
  | boot => exact fun wk hw => by cases hw
  | step _ hs ih =>
      intro wk hw
      cases hs with
      | others s s' q reqs w hother =>
          obtain ⟨p, hrest, hholds⟩ := ih wk hw
          exact ⟨p, hrest, hholds.world fun d => past_others hother⟩
      | restart => cases hw
      | start s q k hk =>
          cases hw
          exact ⟨.begin, rfl, trivial⟩
      | call s s' q k x x' op next r hcall =>
          cases hw
          obtain ⟨p, hrest, hholds⟩ := ih _ rfl
          exact pos_call hholds hrest.symm hcall
      | done => cases hw
      | retry => cases hw

/-! ## 5. Calm steps -/

/-- **A calm step for `k`**: nobody else writes the custom resource or its child, no call for them
    fails, and the operator does not restart. For other requests anything may happen. -/
inductive Calm (k : Key) : Loop latest → Loop latest → Prop where
  | others (s s' : World latest) (q reqs : List Key) (wk) (h : Others s reqs s')
      (hmycrd : s'.cluster.mycrds.get k = s.cluster.mycrds.get k)
      (hchild : s'.cluster.deployments.get (childKey k) = s.cluster.deployments.get (childKey k)) :
      Calm k ⟨s, q, wk⟩ ⟨s', q ++ reqs, wk⟩
  | start (s : World latest) (q : List Key) (k' : Key) (hk : k' ∈ q) :
      Calm k ⟨s, q, none⟩ ⟨s, q.filter (· ≠ k'), some ⟨k', {}, reconcile k'⟩⟩
  | call (s s' : World latest) (q : List Key) (k' : Key) (x x' : Held) (op : ApiCall)
      (next : Answer op → Program (Except Err Unit)) (r : Answer op)
      (h : (operator latest).call op (x, s) r (x', s'))
      (hk : k' = k → (r, (x', s')) = World.serve latest op (x, s)) :
      Calm k ⟨s, q, some ⟨k', x, .call op next⟩⟩ ⟨s', q, some ⟨k', x', next r⟩⟩
  | done (s : World latest) (q : List Key) (k' : Key) (x : Held) :
      Calm k ⟨s, q, some ⟨k', x, .ret (.ok ())⟩⟩ ⟨s, q, none⟩
  | retry (s : World latest) (q : List Key) (k' : Key) (x : Held) (e : Err) :
      Calm k ⟨s, q, some ⟨k', x, .ret (.error e)⟩⟩ ⟨s, k' :: q, none⟩

/-- A calm step is one of the operator's. -/
theorem Calm.step {st st' : Loop latest} (h : Calm k st st') :
    ControlLoop.Step (operator latest) st st' := by
  cases h with
  | others s s' q reqs wk h => exact .others s s' q reqs wk h
  | start s q k' hk => exact .start s q k' hk
  | call s s' q k' x x' op next r h => exact .call s s' q k' x x' op next r h
  | done s q k' x => exact .done s q k' x
  | retry s q k' x e => exact .retry s q k' x e

/-- **The view of a state.** -/
structure Shows (k : Key) (st : Loop latest) (v : View) : Prop where
  mycrd : v.mycrd = st.store.mycrds.feed k
  child : v.child = st.store.deployments.feed (childKey k)
  queued : v.queued = true ↔ k ∈ st.queue
  idle : (∀ wk, st.worker = some wk → wk.req ≠ k) → v.pos = none
  busy : ∀ wk, st.worker = some wk → wk.req = k →
    ∃ p, v.pos = some p ∧ wk.rest = p.rest k ∧ p.Holds k wk.mem st.store

/-- Every state that is reached has a view. -/
theorem exists_view {st : Loop latest} (h : AtPos st) (k : Key) : ∃ v, Shows k st v := by
  by_cases hbusy : ∃ wk, st.worker = some wk ∧ wk.req = k
  · obtain ⟨wk, hwk, rfl⟩ := hbusy
    obtain ⟨p, hrest, hholds⟩ := h wk hwk
    refine ⟨⟨st.store.mycrds.feed wk.req, st.store.deployments.feed (childKey wk.req),
      decide (wk.req ∈ st.queue), some p⟩, rfl, rfl, decide_eq_true_iff, fun hidle => ?_,
      fun wk' hwk' _ => ?_⟩
    · exact absurd rfl (hidle wk hwk)
    · obtain rfl : wk' = wk := Option.some.inj (hwk'.symm.trans hwk)
      exact ⟨p, rfl, hrest, hholds⟩
  · refine ⟨⟨st.store.mycrds.feed k, st.store.deployments.feed (childKey k),
      decide (k ∈ st.queue), none⟩, rfl, rfl, decide_eq_true_iff, fun _ => rfl, fun wk hwk hreq => ?_⟩
    exact absurd ⟨wk, hwk, hreq⟩ hbusy

/-- What a step of the others is for the two objects, when it does not write them. -/
theorem others_feeds {w w' : World latest} {reqs : List Key} (hs : Others w reqs w')
    (hmycrd : w'.cluster.mycrds.get k = w.cluster.mycrds.get k)
    (hchild : w'.cluster.deployments.get (childKey k) = w.cluster.deployments.get (childKey k)) :
    (w'.mycrds.feed k = w.mycrds.feed k ∧
        w'.deployments.feed (childKey k) = w.deployments.feed (childKey k)) ∨
      ((w.mycrds.feed k).pending ≠ [] ∧ w'.mycrds.feed k = (w.mycrds.feed k).tell ∧
        w'.deployments.feed (childKey k) = w.deployments.feed (childKey k) ∧ k ∈ reqs) ∨
      ((w.deployments.feed (childKey k)).pending ≠ [] ∧ w'.mycrds.feed k = w.mycrds.feed k ∧
        w'.deployments.feed (childKey k) = (w.deployments.feed (childKey k)).tell) := by
  cases hs with
  | writeMyCRD k' o ho =>
      refine Or.inl ⟨?_, rfl⟩
      by_cases hk : k = k'
      · subst hk
        have hsame : w.mycrds.stored.get k = o := by
          have hset : (w.mycrds.set k o ho).stored.get k = o := by
            rw [Watched.set_stored, if_pos rfl]
          exact hmycrd.symm.trans hset
        rw [Watched.set_same _ hsame]
      · exact Watched.set_feed_of_ne _ hk (h := ho)
  | writeDeployment k' o ho =>
      refine Or.inl ⟨rfl, ?_⟩
      by_cases hk : childKey k = k'
      · subst hk
        have hsame : w.deployments.stored.get (childKey k) = o := by
          have hset : (w.deployments.set (childKey k) o ho).stored.get (childKey k) = o := by
            rw [Watched.set_stored, if_pos rfl]
          exact hchild.symm.trans hset
        rw [Watched.set_same _ hsame]
      · exact Watched.set_feed_of_ne _ hk (h := ho)
  | tellMyCRD k' o rest hp =>
      by_cases hk : k = k'
      · subst hk
        refine Or.inr (Or.inl ⟨by rw [hp]; exact List.cons_ne_nil o rest, ?_, rfl,
          List.mem_singleton_self _⟩)
        rw [Watched.tell_feed, if_pos rfl]
      · exact Or.inl ⟨Watched.tell_feed_of_ne _ hk, rfl⟩
  | tellDeployment k' o rest hp =>
      by_cases hk : childKey k = k'
      · subst hk
        refine Or.inr (Or.inr ⟨by rw [hp]; exact List.cons_ne_nil o rest, rfl, ?_⟩)
        rw [Watched.tell_feed, if_pos rfl]
      · exact Or.inl ⟨rfl, Watched.tell_feed_of_ne _ hk⟩

/-- A call of a run for another request leaves the two objects alone. -/
theorem call_feeds {k' : Key} (hk : k' ≠ k) {p : Pos} {x x' : Held} {w w' : World latest}
    {op : ApiCall} {next : Answer op → Program (Except Err Unit)} {r : Answer op}
    (hholds : p.Holds k' x w) (hrest : p.rest k' = .call op next)
    (hcall : (operator latest).call op (x, w) r (x', w')) :
    w'.mycrds.feed k = w.mycrds.feed k ∧
      w'.deployments.feed (childKey k) = w.deployments.feed (childKey k) := by
  rcases serve_state hcall with heq | heq
  · cases heq
    exact ⟨rfl, rfl⟩
  · obtain rfl : w' = (World.serve latest op (x, w)).2.2 := congrArg Prod.snd heq
    have hne : childKey k ≠ childKey k' := fun h => hk (childKey_injective h).symm
    rcases pos_writes hholds hrest with hw | hw | hw
    · rw [hw]
      exact ⟨rfl, rfl⟩
    · rw [hw]
      exact ⟨rfl, Watched.set_feed_of_ne _ hne
        (h := (apply latest op w.cluster).2.deployments.keyed (childKey k'))⟩
    · rw [hw]
      exact ⟨Watched.set_feed_of_ne _ hk.symm
        (h := (apply latest op w.cluster).2.mycrds.keyed k'), rfl⟩

theorem rest_ret {p : Pos} {r : Except Err Unit} (h : .ret r = p.rest k) : p = .finished r := by
  cases p with
  | finished r' =>
      cases h
      rfl
  | begin =>
      rw [Pos.rest, reconcile_call] at h
      cases h
  | child my =>
      rw [Pos.rest, reconcileMyCRD_call] at h
      cases h
  | create my => cases h
  | update my d => cases h
  | fresh my =>
      rw [Pos.rest, reconcileStatus, Prog.send_bind] at h
      cases h
  | setStatus my available => cases h

/-- **The automaton simulates every calm step.** -/
theorem calm_view {st st' : Loop latest} {v : View} (hat : AtPos st) (hv : Shows k st v)
    (hs : Calm k st st') : ∃ v', Shows k st' v' ∧ View.Step latest k v v' := by
  cases hs with
  | others s s' q reqs wk h hmycrd hchild =>
      have hqueued : v.queued = true → decide (k ∈ q ++ reqs) = true := fun hq =>
        decide_eq_true (List.mem_append_left _ (hv.queued.mp hq))
      have hbusy : ∀ w, wk = some w → w.req = k →
          ∃ p, v.pos = some p ∧ w.rest = p.rest k ∧ p.Holds k w.mem s' := by
        intro w hw hreq
        obtain ⟨p, hp, hrest, hholds⟩ := hv.busy w hw hreq
        exact ⟨p, hp, hrest, hholds.world fun d => past_others h⟩
      rcases others_feeds h hmycrd hchild with ⟨hm, hc⟩ | ⟨hp, hm, hc, hreq⟩ | ⟨hp, hm, hc⟩
      · exact ⟨{ v with queued := decide (k ∈ q ++ reqs) },
          ⟨hv.mycrd.trans hm.symm, hv.child.trans hc.symm, decide_eq_true_iff, hv.idle, hbusy⟩,
          .queue v _ hqueued⟩
      · refine ⟨{ v with mycrd := v.mycrd.tell, queued := true },
          ⟨(congrArg Feed.tell hv.mycrd).trans hm.symm, hv.child.trans hc.symm, ?_, hv.idle, hbusy⟩,
          .tellMyCRD v (hv.mycrd ▸ hp)⟩
        exact iff_of_true rfl (List.mem_append_right _ hreq)
      · exact ⟨{ v with child := v.child.tell, queued := decide (k ∈ q ++ reqs) },
          ⟨hv.mycrd.trans hm.symm, (congrArg Feed.tell hv.child).trans hc.symm, decide_eq_true_iff,
            hv.idle, hbusy⟩, .tellChild v _ (hv.child ▸ hp) hqueued⟩
  | start s q k' hk' =>
      have hpos : v.pos = none := hv.idle fun _ h => by cases h
      by_cases hk : k' = k
      · subst hk
        refine ⟨{ v with queued := false, pos := some .begin },
          ⟨hv.mycrd, hv.child, iff_of_false Bool.false_ne_true (by simp), fun h => ?_,
            fun wk h _ => ?_⟩, .start v (hv.queued.mpr hk') hpos⟩
        · exact absurd rfl (h _ rfl)
        · cases h
          exact ⟨.begin, rfl, rfl, trivial⟩
      · refine ⟨v, ⟨hv.mycrd, hv.child, hv.queued.trans ?_, fun _ => hpos, fun wk h hreq => ?_⟩,
          .queue v v.queued id⟩
        · simp [Ne.symm hk]
        · cases h
          exact absurd hreq hk
  | call s s' q k' x x' op next r h hnominal =>
      by_cases hk : k' = k
      · subst hk
        obtain ⟨p, hp, hrest, hholds⟩ := hv.busy _ rfl rfl
        obtain ⟨p', hnext, hholds', hmove⟩ := pos_served hholds hrest.symm
        have hrx := hnominal rfl
        obtain rfl : r = (World.serve latest op (x, s)).1 := congrArg Prod.fst hrx
        rw [← congrArg Prod.snd hrx] at hholds' hmove
        refine ⟨⟨s'.mycrds.feed k', s'.deployments.feed (childKey k'), v.queued, some p'⟩,
          ⟨rfl, rfl, hv.queued, fun h => absurd rfl (h _ rfl), fun wk hwk _ => ?_⟩,
          .move v p p' _ _ hp ?_⟩
        · cases hwk
          exact ⟨p', rfl, hnext, hholds'⟩
        · rw [hv.mycrd, hv.child]
          exact hmove
      · obtain ⟨p, hrest, hholds⟩ := hat _ rfl
        obtain ⟨hm, hc⟩ := call_feeds hk hholds hrest.symm h
        refine ⟨v, ⟨hv.mycrd.trans hm.symm, hv.child.trans hc.symm, hv.queued, fun _ => ?_,
          fun wk hwk hreq => ?_⟩, .queue v v.queued id⟩
        · refine hv.idle fun wk hwk => ?_
          cases hwk
          exact hk
        · cases hwk
          exact absurd hreq hk
  | done s q k' x =>
      by_cases hk : k' = k
      · subst hk
        obtain ⟨p, hp, hrest, _⟩ := hv.busy _ rfl rfl
        obtain rfl := rest_ret hrest
        exact ⟨{ v with pos := none }, ⟨hv.mycrd, hv.child, hv.queued, fun _ => rfl,
          fun _ h => by cases h⟩, .done v hp⟩
      · refine ⟨v, ⟨hv.mycrd, hv.child, hv.queued, fun _ => hv.idle fun wk hwk => ?_,
          fun _ h => by cases h⟩, .queue v v.queued id⟩
        cases hwk
        exact hk
  | retry s q k' x e =>
      by_cases hk : k' = k
      · subst hk
        obtain ⟨p, hp, hrest, _⟩ := hv.busy _ rfl rfl
        obtain rfl := rest_ret hrest
        exact ⟨{ v with pos := none, queued := true }, ⟨hv.mycrd, hv.child,
          iff_of_true rfl List.mem_cons_self, fun _ => rfl, fun _ h => by cases h⟩, .retry v e hp⟩
      · refine ⟨v, ⟨hv.mycrd, hv.child, hv.queued.trans ?_, fun _ => hv.idle fun wk hwk => ?_,
          fun _ h => by cases h⟩, .queue v v.queued id⟩
        · simp [Ne.symm hk]
        · cases hwk
          exact hk

end Operator
