/-
  File:      BlogDemo/Operator/Loop.lean
  Subject:   THE OPERATOR AS IT IS DEPLOYED: `Reconcile` in the loop of controller-runtime, with the caches
             it reads, the watches that `SetupWithManager` sets up, and everybody else at the same time.

  Reads are answered from the informers' caches, which are behind. A write says which version of the
  object was read, and is refused when the object has another one. Between any two calls of a run
  anybody may write any object, in any way that the server accepts. The watches are not interrupted.

  * `World`, `World.serve` -- the server with the caches, and a call of `Reconcile`;
  * `requestOf`, `Others`, `Restart` -- `For(&MyCRD{})`, `Owns(&Deployment{})` and everybody else;
  * `Owed`, `AtRest`, **`tracks`** -- a request that is neither queued nor due has nothing left to do;
  * **`quiet_converged`** -- in every state that is reached in which nothing is queued, under way or pending
    for a custom resource, its child is what its specification asks for.
-/
import BlogDemo.Lib.ControlLoop
import BlogDemo.Lib.Kube.Watch
import BlogDemo.Operator.Quiescence

namespace Operator

open Atomic Kube

variable {latest : String → Bool}

/-! ## 1. The server and the caches -/

/-- The server's objects and the informers that watch them. -/
structure World (latest : String → Bool) where
  mycrds : Watched Key MyCRD fun my k => my.key = k
  deployments : Watched Key Deployment fun d k =>
    d.key = k ∧ d.valid = true ∧ d.setDefaults latest = d

namespace World

/-- What the server has. -/
def cluster (w : World latest) : Cluster latest := ⟨w.mycrds.stored, w.deployments.stored⟩

/-- What the caches have. -/
def cached (w : World latest) : Cluster latest := ⟨w.mycrds.cache, w.deployments.cache⟩

/-- The server stores what it makes of `op` under `k`. -/
def writeDeployment (w : World latest) (op : ApiCall) (k : Key) : World latest :=
  { w with
    deployments := w.deployments.set k ((apply latest op w.cluster).2.deployments.get k)
      ((apply latest op w.cluster).2.deployments.keyed k) }

def writeMyCRD (w : World latest) (op : ApiCall) (k : Key) : World latest :=
  { w with
    mycrds := w.mycrds.set k ((apply latest op w.cluster).2.mycrds.get k)
      ((apply latest op w.cluster).2.mycrds.keyed k) }

end World

/-- The resource versions of what a run has read last. -/
structure Held where
  mycrd : Option Nat := none
  deploy : Option Nat := none

/-- The object has another version than the one that is sent; without one there is no check. -/
def conflicts {V : Type} (held : Option Nat) (current : Option (Version V)) : Bool :=
  match held, current with
  | some rev, some v => v.rev != rev
  | _, _ => false

def modified : ApiError :=
  .failed "the object has been modified; please apply your changes to the latest version and try again"

/-- **A call of a run**: reads are answered by the caches, writes by the server. -/
def World.serve (latest : String → Bool) : Apply ApiCall Answer (Held × World latest)
  | .getMyCRD k, (x, w) =>
    ((apply latest (.getMyCRD k) w.cached).1,
      ({ x with mycrd := (w.mycrds.feed k).seen.map (·.rev) }, w))
  | .getDeployment k, (x, w) =>
    ((apply latest (.getDeployment k) w.cached).1,
      ({ x with deploy := (w.deployments.feed k).seen.map (·.rev) }, w))
  | .createDeployment d, (x, w) =>
    ((apply latest (.createDeployment d) w.cluster).1,
      (x, w.writeDeployment (.createDeployment d) d.key))
  | .updateDeployment d, (x, w) =>
    if conflicts x.deploy (w.deployments.feed d.key).current then (.error modified, (x, w))
    else ((apply latest (.updateDeployment d) w.cluster).1,
      (x, w.writeDeployment (.updateDeployment d) d.key))
  | .updateStatus my, (x, w) =>
    if conflicts x.mycrd (w.mycrds.feed my.key).current then (.error modified, (x, w))
    else ((apply latest (.updateStatus my) w.cluster).1,
      (x, w.writeMyCRD (.updateStatus my) my.key))

/-- A write may fail, before or after its effect; a cache answers. -/
def WriteFailed (op : ApiCall) (r : Answer op) : Prop := op.isWrite = true ∧ Failed op r

/-! ## 2. Everybody else -/

/-- `handler.EnqueueRequestForOwner` for MyCRD, with `OnlyControllerOwner`. -/
def requestOf (d : Deployment) : Option Key :=
  match getControllerOf d.metadata.ownerReferences with
  | some ref =>
    if groupOf ref.apiVersion = groupOf "demo.example.com/v1alpha1" ∧ ref.kind = "MyCRD" then
      some ⟨d.metadata.ns, ref.name⟩
    else none
  | none => none

/-- **A step of everybody else**, with the requests it queues: anybody writes an object, or an informer
    hands on the next state of one. An event is about the state before it, too. -/
inductive Others : World latest → List Key → World latest → Prop where
  | writeMyCRD (w : World latest) (k : Key) (o : Option MyCRD) (h : ∀ my, o = some my → my.key = k) :
      Others w [] { w with mycrds := w.mycrds.set k o h }
  | writeDeployment (w : World latest) (k : Key) (o : Option Deployment)
      (h : ∀ d, o = some d → d.key = k ∧ d.valid = true ∧ d.setDefaults latest = d) :
      Others w [] { w with deployments := w.deployments.set k o h }
  | tellMyCRD (w : World latest) (k : Key) (o : Option (Version MyCRD))
      (rest : List (Option (Version MyCRD))) (hp : (w.mycrds.feed k).pending = o :: rest) :
      Others w [k] { w with mycrds := w.mycrds.tell k }
  | tellDeployment (w : World latest) (k : Key) (o : Option (Version Deployment))
      (rest : List (Option (Version Deployment)))
      (hp : (w.deployments.feed k).pending = o :: rest) :
      Others w (((w.deployments.feed k).seen.toList ++ o.toList).filterMap fun v => requestOf v.obj)
        { w with deployments := w.deployments.tell k }

/-- **A restart**: the caches are filled again, and every object there is is an event. -/
inductive Restart : World latest → List Key → World latest → Prop where
  | list (w : World latest) (reqs : List Key)
      (hmycrds : ∀ k my, w.cluster.mycrds.get k = some my → k ∈ reqs)
      (hdeployments : ∀ k d r, w.cluster.deployments.get k = some d → requestOf d = some r →
        r ∈ reqs) :
      Restart w reqs ⟨w.mycrds.relist, w.deployments.relist⟩

/-- **The operator.** -/
def operator (latest : String → Bool) :
    ControlLoop.System Key ApiCall Answer Err Held (World latest) where
  reconcile := reconcile
  fresh := {}
  call := Faulty (World.serve latest) WriteFailed
  others := Others
  restart := Restart

/-! ## 3. The calls -/

variable {w w' : World latest} {my : MyCRD} {d : Deployment} {k : Key} {x x' : Held} {op : ApiCall}

theorem serve_read {r : Answer op} (hop : op.isWrite = false)
    (h : (operator latest).call op (x, w) r (x', w')) :
    r = (World.serve latest op (x, w)).1 ∧ (x', w') = (World.serve latest op (x, w)).2 := by
  refine Faulty.of_not_fault h fun hf => ?_
  have hwrite := hf.1
  rw [hop] at hwrite
  cases hwrite

theorem serve_write {a : Content op} (h : (operator latest).call op (x, w) (.ok a) (x', w')) :
    (World.serve latest op (x, w)).1 = .ok a ∧ (x', w') = (World.serve latest op (x, w)).2 := by
  obtain ⟨hr, hxw⟩ := Faulty.of_not_fault h fun hf => by
    obtain ⟨_, m, hm⟩ := hf
    cases hm
  exact ⟨hr.symm, hxw⟩

/-- Whatever a call is answered, the world is as it was, or as the call leaves it. -/
theorem serve_state {r : Answer op} (h : (operator latest).call op (x, w) r (x', w')) :
    (x', w') = (x, w) ∨ (x', w') = (World.serve latest op (x, w)).2 :=
  Faulty.state h

theorem cached_mycrd {o : Option (Version MyCRD)} (h : (w.mycrds.feed k).seen = o) :
    w.cached.mycrds.get k = o.map (·.obj) := by
  rw [World.cached, Watched.cache_get, h]

theorem cached_deployment {o : Option (Version Deployment)}
    (h : (w.deployments.feed k).seen = o) : w.cached.deployments.get k = o.map (·.obj) := by
  rw [World.cached, Watched.cache_get, h]

theorem stored_mycrd {o : Option (Version MyCRD)} (h : (w.mycrds.feed k).current = o) :
    w.cluster.mycrds.get k = o.map (·.obj) := by
  rw [World.cluster, Watched.stored_get, h]

theorem stored_deployment {o : Option (Version Deployment)}
    (h : (w.deployments.feed k).current = o) : w.cluster.deployments.get k = o.map (·.obj) := by
  rw [World.cluster, Watched.stored_get, h]

/-- A version that was read and does not conflict is the one the server has. -/
theorem current_of_read {K V : Type} {key : V → K → Prop} {s : Watched K V key} {k : K}
    {v v' : Version V} (hp : s.Past k v) (hv' : (s.feed k).current = some v')
    (hc : conflicts (some v.rev) (s.feed k).current = false) :
    (s.feed k).seen = some v ∧ (s.feed k).pending = [] ∧ v' = v := by
  rw [hv'] at hc
  exact Watched.past_current hp hv' (by simpa [conflicts] using hc)

/-! ## 4. What is due, and what is done -/

/-- An event of the custom resource or of its child is pending, and will queue the request. -/
def Owed (k : Key) (w : World latest) : Prop :=
  (w.mycrds.feed k).pending ≠ [] ∨ (w.deployments.feed (childKey k)).pending ≠ [] ∧
    ∃ v, some v ∈ (w.deployments.feed (childKey k)).states ∧ requestOf v.obj = some k

/-- **A run would change nothing**: the child is what `mutate` makes of it, and the status is its own. -/
structure Fixed (my : MyCRD) (d : Deployment) (latest : String → Bool) : Prop where
  own : foreign my d = false
  same : (mutated my d).setDefaults latest = d
  status : my.status.availableReplicas = d.status.availableReplicas

def AtRest (k : Key) (c : Cluster latest) : Prop :=
  ∀ my, c.mycrds.get k = some my → ∃ d, c.deployments.get (childKey k) = some d ∧ Fixed my d latest

/-- The request is queued, or due, or there is nothing left to do for it. -/
def Clean (k : Key) (w : World latest) (q : List Key) : Prop := k ∈ q ∨ Owed k w ∨ AtRest k w.cached

/-- A Deployment that `mutate` has made is one whose events are about the custom resource. -/
theorem requestOf_mutated (hd : d.key = my.deployKey) (hf : foreign my d = false) :
    requestOf ((mutated my d).setDefaults latest) = some my.key := by
  have hns : d.metadata.ns = my.ns := congrArg Key.ns hd
  have hc : getControllerOf ((mutated my d).setDefaults latest).metadata.ownerReferences =
      some my.owner.controllerRef := mutated_controller hf
  unfold requestOf
  rw [hc]
  have hk : ((mutated my d).setDefaults latest).metadata.ns = my.ns := hns
  simp only [hk]
  exact if_pos ⟨rfl, rfl⟩

theorem Fixed.request (h : Fixed my d latest) (hd : d.key = my.deployKey) :
    requestOf d = some my.key := by
  rw [← h.same]
  exact requestOf_mutated hd h.own

theorem owed_writeMyCRD (h : Owed k w) (k' : Key) (o : Option MyCRD)
    (ho : ∀ my, o = some my → my.key = k') : Owed k { w with mycrds := w.mycrds.set k' o ho } := by
  refine h.imp (fun hp hnil => ?_) id
  obtain ⟨l, hl⟩ := w.mycrds.set_pending (h := ho) k
  exact hp (List.append_eq_nil_iff.mp (hl.symm.trans hnil)).1

theorem owed_writeDeployment (h : Owed k w) (k' : Key) (o : Option Deployment)
    (ho : ∀ d, o = some d → d.key = k' ∧ d.valid = true ∧ d.setDefaults latest = d) :
    Owed k { w with deployments := w.deployments.set k' o ho } := by
  refine h.imp id fun hd => ?_
  obtain ⟨hp, v, hv, hreq⟩ := hd
  obtain ⟨l, hl⟩ := w.deployments.set_pending (h := ho) (childKey k)
  refine ⟨fun hnil => hp (List.append_eq_nil_iff.mp (hl.symm.trans hnil)).1, v, ?_, hreq⟩
  show some v ∈ _ :: _
  rw [hl, Watched.set_seen, ← List.cons_append]
  exact List.mem_append_left _ hv

/-- The requests of an event: those of the state before it and of the state after it. -/
theorem mem_requests {old new : Option (Version Deployment)} :
    k ∈ ((old.toList ++ new.toList).filterMap fun v => requestOf v.obj) ↔
      ∃ v, (old = some v ∨ new = some v) ∧ requestOf v.obj = some k := by
  simp only [List.mem_filterMap, List.mem_append, Option.mem_toList]

/-- **What is due stays due, until it is queued.** -/
theorem owed_others {reqs : List Key} (hs : Others w reqs w') (h : Owed k w) :
    k ∈ reqs ∨ Owed k w' := by
  cases hs with
  | writeMyCRD k' o ho => exact Or.inr (owed_writeMyCRD h k' o ho)
  | writeDeployment k' o ho => exact Or.inr (owed_writeDeployment h k' o ho)
  | tellMyCRD k' o rest hp =>
      by_cases hk : k = k'
      · exact Or.inl (List.mem_singleton.mpr hk)
      · refine Or.inr (h.imp (fun hp => ?_) id)
        rw [Watched.tell_feed_of_ne _ hk]
        exact hp
  | tellDeployment k' o rest hp =>
      rcases h with h | ⟨hpending, v, hv, hreq⟩
      · exact Or.inr (Or.inl h)
      · by_cases hk : childKey k = k'
        · subst hk
          by_cases hmem : k ∈ (((w.deployments.feed (childKey k)).seen.toList ++
              o.toList).filterMap fun v => requestOf v.obj)
          · exact Or.inl hmem
          · -- neither state of this event requests it, so a later one does
            have hrest : some v ∈ rest := by
              rw [Feed.states, hp] at hv
              rcases List.mem_cons.mp hv with hv | hv
              · exact absurd (mem_requests.mpr ⟨v, Or.inl hv.symm, hreq⟩) hmem
              · rcases List.mem_cons.mp hv with hv | hv
                · exact absurd (mem_requests.mpr ⟨v, Or.inr hv.symm, hreq⟩) hmem
                · exact hv
            have htell : ((w.deployments.tell (childKey k)).feed (childKey k)) = ⟨o, rest⟩ := by
              rw [Watched.tell_feed, if_pos rfl, Feed.tell, hp]
            refine Or.inr (Or.inr ?_)
            rw [htell]
            exact ⟨List.ne_nil_of_mem hrest, v, List.mem_cons_of_mem _ hrest, hreq⟩
        · refine Or.inr (Or.inr ?_)
          rw [Watched.tell_feed_of_ne _ hk]
          exact ⟨hpending, v, hv, hreq⟩

/-- A request that is at rest stays so, until it is queued. -/
theorem atRest_others {reqs : List Key} (hs : Others w reqs w') (h : AtRest k w.cached) :
    k ∈ reqs ∨ AtRest k w'.cached := by
  cases hs with
  | writeMyCRD k' o ho =>
      refine Or.inr fun my hmy => h my ?_
      rwa [World.cached, Watched.set_cache] at hmy
  | writeDeployment k' o ho =>
      refine Or.inr fun my hmy => ?_
      rw [World.cached, Watched.set_cache]
      exact h my hmy
  | tellMyCRD k' o rest hp =>
      by_cases hk : k = k'
      · exact Or.inl (List.mem_singleton.mpr hk)
      · refine Or.inr fun my hmy => h my ?_
        rwa [World.cached, Watched.tell_cache_of_ne _ hk] at hmy
  | tellDeployment k' o rest hp =>
      by_cases hk : childKey k = k'
      · subst hk
        cases hmy : w.cached.mycrds.get k with
        | none =>
            refine Or.inr fun my hmy' => ?_
            cases hmy.symm.trans hmy'
        | some my =>
            -- the child that the cache had is the custom resource's, so the event requests it
            obtain ⟨d, hd, hfixed⟩ := h my hmy
            have hkey : my.key = k := w.cached.mycrds.keyed k my hmy
            have hdkey : d.key = my.deployKey := by
              rw [(w.cached.deployments.keyed _ d hd).1, deployKey_key, hkey]
            obtain ⟨v, hv, rfl⟩ := Option.map_eq_some_iff.mp hd
            refine Or.inl (mem_requests.mpr ⟨v, Or.inl hv, ?_⟩)
            rw [hfixed.request hdkey, hkey]
      · refine Or.inr fun my hmy => ?_
        obtain ⟨d, hd, hfixed⟩ := h my hmy
        exact ⟨d, (Watched.tell_cache_of_ne _ hk).trans hd, hfixed⟩

/-- What a call makes of the world. -/
theorem serve_world (op : ApiCall) (x : Held) (w : World latest) :
    (World.serve latest op (x, w)).2.2 = w ∨
      (∃ k, (World.serve latest op (x, w)).2.2 = w.writeDeployment op k) ∨
      ∃ k, (World.serve latest op (x, w)).2.2 = w.writeMyCRD op k := by
  cases op with
  | getMyCRD k => exact Or.inl rfl
  | getDeployment k => exact Or.inl rfl
  | createDeployment d => exact Or.inr (Or.inl ⟨d.key, rfl⟩)
  | updateDeployment d =>
      simp only [World.serve]
      split
      · exact Or.inl rfl
      · exact Or.inr (Or.inl ⟨d.key, rfl⟩)
  | updateStatus my =>
      simp only [World.serve]
      split
      · exact Or.inl rfl
      · exact Or.inr (Or.inr ⟨my.key, rfl⟩)

/-- No call changes the caches, and what is due stays due. -/
theorem call_keeps {r : Answer op} (h : (operator latest).call op (x, w) r (x', w')) :
    w'.cached = w.cached ∧ (Owed k w → Owed k w') := by
  rcases serve_state h with heq | heq
  · cases heq
    exact ⟨rfl, id⟩
  · obtain rfl : w' = (World.serve latest op (x, w)).2.2 := congrArg Prod.snd heq
    rcases serve_world op x w with hw | ⟨k', hw⟩ | ⟨k', hw⟩
    · rw [hw]
      exact ⟨rfl, id⟩
    · rw [hw]
      refine ⟨?_, fun ho => owed_writeDeployment ho k' _ _⟩
      rw [World.cached, World.writeDeployment, Watched.set_cache]
      rfl
    · rw [hw]
      refine ⟨?_, fun ho => owed_writeMyCRD ho k' _ _⟩
      rw [World.cached, World.writeMyCRD, Watched.set_cache]
      rfl

/-! ## 5. What a run knows -/

/-- `P` holds, unless the request is queued again or due. -/
def Unless (k : Key) (P : Held → World latest → Prop) : ControlLoop.Know Key Held (World latest) :=
  fun x w q => k ∈ q ∨ Owed k w ∨ P x w

/-- What the others do keeps `P`, or queues the request, or makes it due. -/
def Watches (k : Key) (P : Held → World latest → Prop) : Prop :=
  ∀ x w reqs w', Others w reqs w' → P x w → k ∈ reqs ∨ Owed k w' ∨ P x w'

theorem stable_unless {P : Held → World latest → Prop} (hP : Watches k P) :
    ControlLoop.Stable (operator latest) (Unless k P) := by
  intro x w q reqs w' hs h
  rcases h with hq | ho | hp
  · exact Or.inl (List.mem_append_left _ hq)
  · rcases owed_others hs ho with hr | ho'
    · exact Or.inl (List.mem_append_right _ hr)
    · exact Or.inr (Or.inl ho')
  · rcases hP x w reqs w' hs hp with hr | ho | hp'
    · exact Or.inl (List.mem_append_right _ hr)
    · exact Or.inr (Or.inl ho)
    · exact Or.inr (Or.inr hp')

/-- **The program ends with the request clean**, when it succeeds. -/
abbrev Cleans (k : Key) (P : Held → World latest → Prop) (p : Program (Except Err Unit)) : Prop :=
  ControlLoop.Keeps (operator latest) (fun _ _ _ _ => True) (fun r _ w q => r = .ok () → Clean k w q)
    (Unless k P) p

/-- Once the request is queued again or due, the rest of the run does not matter. -/
theorem cleans_due (k : Key) (p : Program (Except Err Unit)) :
    @Cleans latest k (fun _ _ => False) p := by
  induction p with
  | ret a => exact fun x w q h _ => h.imp id (Or.imp id False.elim)
  | call op next ih =>
      intro x w q r x' w' h hcall
      refine ⟨trivial, Unless k fun _ _ => False, stable_unless fun _ _ _ _ _ h => h.elim, ?_, ih r⟩
      exact h.imp id (Or.imp (call_keeps hcall).2 id)

theorem cleans_error {P : Held → World latest → Prop} (e : Err) : Cleans k P (.ret (.error e)) :=
  fun _ _ _ _ h => (nomatch h)

theorem cleans_ok {P : Held → World latest → Prop} (h : ∀ x w, P x w → AtRest k w.cached) :
    Cleans k P (.ret (.ok ())) :=
  fun x w _ hk _ => hk.imp id (Or.imp id (h x w))

/-- **One call**: it makes the request due, or the run goes on from what it then knows. -/
theorem cleans_call {P : Held → World latest → Prop} {next : Answer op → Program (Except Err Unit)}
    (h : ∀ x w r x' w', P x w → (operator latest).call op (x, w) r (x', w') →
      Owed k w' ∨ ∃ P', Watches k P' ∧ P' x' w' ∧ Cleans k P' (next r)) :
    Cleans k P (.call op next) := by
  intro x w q r x' w' hk hcall
  refine ⟨trivial, ?_⟩
  have hdue : k ∈ q ∨ Owed k w' → ∃ K', ControlLoop.Stable (operator latest) K' ∧ K' x' w' q ∧
      ControlLoop.Keeps (operator latest) (fun _ _ _ _ => True)
        (fun r _ w q => r = .ok () → Clean k w q) K' (next r) := fun hd =>
    ⟨_, stable_unless fun _ _ _ _ _ h => h.elim, hd.imp id Or.inl, cleans_due k (next r)⟩
  rcases hk with hq | ho | hp
  · exact hdue (Or.inl hq)
  · exact hdue (Or.inr ((call_keeps hcall).2 ho))
  · rcases h x w r x' w' hp hcall with ho | ⟨P', hwatch, hp', hrest⟩
    · exact hdue (Or.inr ho)
    · exact ⟨_, stable_unless hwatch, Or.inr (Or.inr hp'), hrest⟩

/-! ## 6. The run -/

/-- The custom resource as the run has read it, which the cache still has. -/
def Read (k : Key) (v : Version MyCRD) (x : Held) (w : World latest) : Prop :=
  (w.mycrds.feed k).seen = some v ∧ x.mycrd = some v.rev

/-- A cache that has no custom resource, or has this one, has so until an event of it. -/
theorem watches_mycrd {o : Option (Version MyCRD)} {P : Held → Prop} :
    @Watches latest k fun x w => (w.mycrds.feed k).seen = o ∧ P x := by
  intro x w reqs w' hs h
  obtain ⟨hseen, hx⟩ := h
  cases hs with
  | writeMyCRD k' o' ho => exact Or.inr (Or.inr ⟨(Watched.set_seen _ (h := ho) k).trans hseen, hx⟩)
  | writeDeployment k' o' ho => exact Or.inr (Or.inr ⟨hseen, hx⟩)
  | tellMyCRD k' o' rest hp =>
      by_cases hk : k = k'
      · exact Or.inl (List.mem_singleton.mpr hk)
      · refine Or.inr (Or.inr ⟨?_, hx⟩)
        rw [Watched.tell_feed_of_ne _ hk]
        exact hseen
  | tellDeployment k' o' rest hp => exact Or.inr (Or.inr ⟨hseen, hx⟩)

/-- A version of a Deployment that was read is in the past for good. -/
theorem watches_past {key : Key} {v : Version Deployment} {P : Held → World latest → Prop}
    (hP : Watches k P) : Watches k fun x w => w.deployments.Past key v ∧ P x w := by
  intro x w reqs w' hs h
  obtain ⟨hpast, hp⟩ := h
  refine (hP x w reqs w' hs hp).imp id (Or.imp id fun hp' => ⟨?_, hp'⟩)
  cases hs with
  | writeMyCRD => exact hpast
  | writeDeployment k' o ho => exact Watched.past_set hpast (h := ho)
  | tellMyCRD => exact hpast
  | tellDeployment => exact Watched.past_tell hpast

/-- A child whose events are about the custom resource stays in the cache until one of them. -/
theorem watches_child {v : Version Deployment} {P : Held → World latest → Prop} (hP : Watches k P)
    (hv : requestOf v.obj = some k) :
    Watches k fun x w => (w.deployments.feed (childKey k)).seen = some v ∧ P x w := by
  intro x w reqs w' hs h
  obtain ⟨hseen, hp⟩ := h
  rcases hP x w reqs w' hs hp with hr | ho | hp'
  · exact Or.inl hr
  · exact Or.inr (Or.inl ho)
  · cases hs with
    | writeMyCRD => exact Or.inr (Or.inr ⟨hseen, hp'⟩)
    | writeDeployment k' o ho =>
        exact Or.inr (Or.inr ⟨(Watched.set_seen _ (h := ho) (childKey k)).trans hseen, hp'⟩)
    | tellMyCRD => exact Or.inr (Or.inr ⟨hseen, hp'⟩)
    | tellDeployment k' o' rest hpending =>
        by_cases hk : childKey k = k'
        · subst hk
          exact Or.inl (mem_requests.mpr ⟨v, Or.inl hseen, hv⟩)
        · refine Or.inr (Or.inr ⟨?_, hp'⟩)
          rw [Watched.tell_feed_of_ne _ hk]
          exact hseen

/-- A child that is stored anew, as one of the custom resource, makes the request due. -/
theorem owed_written (hd : (apply latest op w.cluster).2.deployments.get (childKey k) = some d)
    (hne : w.cluster.deployments.get (childKey k) ≠ some d) (hreq : requestOf d = some k) :
    Owed k (w.writeDeployment op (childKey k)) := by
  have hfeed : (w.writeDeployment op (childKey k)).deployments.feed (childKey k) =
      (w.deployments.feed (childKey k)).push (some ⟨w.deployments.next, d⟩) := by
    rw [World.writeDeployment]
    simp only
    rw [Watched.set_feed _ (by rw [hd]; exact hne), if_pos rfl, hd]
    rfl
  refine Or.inr ?_
  rw [hfeed]
  exact ⟨by simp [Feed.push], ⟨w.deployments.next, d⟩, by simp, hreq⟩

section Child

variable {v : Version MyCRD} {vd : Version Deployment}

/-- What `Reconcile` goes on with once the child is stored. -/
def afterChild (my : MyCRD) : Except Err OperationResult → Program (Except Err Unit)
  | .error e => .ret (.error e)
  | .ok _ => reconcileStatus my

theorem reconcileMyCRD_call (my : MyCRD) : reconcileMyCRD my =
    .call (.getDeployment my.deployKey) fun r => afterRead my r >>= afterChild my := by
  have hbind : reconcileMyCRD my = reconcileChild my >>= afterChild my := by
    unfold reconcileMyCRD
    refine congrArg (reconcileChild my >>= ·) (funext fun r => ?_)
    cases r <;> rfl
  rw [hbind, reconcileChild_call, Prog.call_bind]

/-- The child is created, when it was not found. -/
theorem afterRead_absent (my : MyCRD) : afterRead my (.error .notFound) =
    .call (.createDeployment (mutated my (frame my))) fun r => .ret (report .created r) := by
  have hmutate := mutateWith_ok (d := frame my) rfl frame_not_foreign
  simp only [afterRead, createOrUpdateRead, hmutate]
  refine congrArg (Prog.call _) (funext fun r => ?_)
  cases r <;> rfl

/-- The child that was found is updated, unless another object controls it. -/
theorem afterRead_found (hkey : d.key = my.deployKey) (hd : d.setDefaults latest = d) :
    (foreign my d = true ∧ ∃ e, afterRead my (.ok ⟨d, hkey⟩) = .ret (.error e)) ∨
    (foreign my d = false ∧ afterRead my (.ok ⟨d, hkey⟩) =
      .call (.updateDeployment (mutated my d)) fun r => .ret (report .updated r)) := by
  cases hf : foreign my d with
  | true =>
      obtain ⟨e, he⟩ := mutateWith_refused hf
      refine Or.inl ⟨rfl, e, ?_⟩
      simp only [afterRead, createOrUpdateRead, he]
      rfl
  | false =>
      refine Or.inr ⟨rfl, ?_⟩
      have hmutate := mutateWith_ok hkey hf
      simp only [afterRead, createOrUpdateRead, hmutate, if_neg (mutated_ne hd)]
      refine congrArg (Prog.call _) (funext fun r => ?_)
      cases r <;> rfl

/-- A child that is created is the custom resource's, and its event is pending. -/
theorem owed_created (hk : my.key = k)
    (h : (apply latest (.createDeployment (mutated my (frame my))) w.cluster).1 = .ok ()) :
    Owed k (w.writeDeployment (.createDeployment (mutated my (frame my))) (childKey k)) := by
  subst hk
  cases hstored : w.cluster.deployments.get my.deployKey with
  | some d =>
      have hkey : (mutated my (frame my)).key = my.deployKey := rfl
      simp only [apply, hkey, hstored] at h
      split at h <;> cases h
  | none =>
      rw [apply_create hstored] at h
      split at h
      · rename_i ha
        refine owed_written (d := (mutated my (frame my)).setDefaults latest) ?_ ?_
          (requestOf_mutated rfl frame_not_foreign)
        · rw [apply_create hstored, dif_pos ha]
          exact (written_child ha).trans (by rw [base_none hstored])
        · rw [← deployKey_key, hstored]
          exact Option.some_ne_none _ ∘ Eq.symm
      · cases h

/-- A child that is updated is due, or it was as it should be. -/
theorem owed_updated (hk : my.key = k) (hstored : w.cluster.deployments.get my.deployKey = some d)
    (hf : foreign my d = false)
    (h : (apply latest (.updateDeployment (mutated my d)) w.cluster).1 = .ok ()) :
    (mutated my d).setDefaults latest = d ∧
        w.writeDeployment (.updateDeployment (mutated my d)) (childKey k) = w ∨
      Owed k (w.writeDeployment (.updateDeployment (mutated my d)) (childKey k)) := by
  subst hk
  have hkey : d.key = my.deployKey := (w.cluster.deployments.keyed _ d hstored).1
  rw [apply_update hstored] at h
  split at h
  · rename_i ha
    have hafter : (apply latest (.updateDeployment (mutated my d)) w.cluster).2.deployments.get
        (childKey my.key) = some ((mutated my d).setDefaults latest) := by
      rw [apply_update hstored, dif_pos ha]
      exact (written_child ha).trans (by rw [base_some hstored])
    by_cases hsame : (mutated my d).setDefaults latest = d
    · refine Or.inl ⟨hsame, ?_⟩
      rw [World.writeDeployment, Watched.set_same]
      rw [hafter, hsame]
      exact hstored
    · refine Or.inr (owed_written hafter (fun heq => hsame ?_) (requestOf_mutated hkey hf))
      exact Option.some.inj (heq.symm.trans hstored)
  · cases h

/-- A status that is written makes the request due. -/
theorem owed_status (hk : my.key = k) (hstored : w.cluster.mycrds.get k = some my)
    {status : MyCRDStatus} (hne : my.status ≠ status) :
    Owed k (w.writeMyCRD (.updateStatus { my with status := status }) k) := by
  subst hk
  have hafter : (apply latest (.updateStatus { my with status := status }) w.cluster).2.mycrds.get
      my.key = some { my with status := status } := by
    rw [apply_updateStatus hstored]
    exact Function.update_self ..
  refine Or.inl ?_
  rw [World.writeMyCRD]
  simp only
  rw [Watched.set_feed, if_pos rfl]
  · simp [Feed.push]
  · rw [hafter]
    intro heq
    exact hne (congrArg MyCRD.status (Option.some.inj (hstored.symm.trans heq)))

/-- What is returned once the status is written. -/
def afterStatus (r : Except ApiError Unit) : Except Err Unit :=
  match r with
  | .error e => .error (.api e)
  | .ok _ => .ok ()

/-- The second half of a run, once the child was found: the status is written when it differs. -/
theorem reconcileStatus_found (hkey : d.key = my.deployKey) :
    ∃ next, reconcileStatus my = .call (.getDeployment my.deployKey) next ∧
      next (.ok ⟨d, hkey⟩) = if my.status.availableReplicas = d.status.availableReplicas
        then .ret (.ok ())
        else .call (.updateStatus { my with status := ⟨d.status.availableReplicas⟩ })
          fun r => .ret (afterStatus r) := by
  refine ⟨_, rfl, ?_⟩
  by_cases heq : my.status.availableReplicas = d.status.availableReplicas
  · rw [if_pos heq]
    exact if_neg (not_not_intro heq)
  · rw [if_neg heq]
    refine (if_pos heq).trans (congrArg (Prog.call _) (funext fun r => ?_))
    cases r <;> rfl

/-- The child the run has left, which the cache has. -/
def Stored (k : Key) (v : Version MyCRD) (vd : Version Deployment) (x : Held) (w : World latest) :
    Prop :=
  (w.deployments.feed (childKey k)).seen = some vd ∧ Read k v x w

/-- **The second half of a run**: the status. -/
theorem cleans_status (hk : v.obj.key = k) (hkey : vd.obj.key = childKey k)
    (hf : foreign v.obj vd.obj = false) (hsame : (mutated v.obj vd.obj).setDefaults latest = vd.obj) :
    Cleans k (@Stored latest k v vd) (reconcileStatus v.obj) := by
  subst hk
  have hreq : requestOf vd.obj = some v.obj.key := by
    rw [← hsame]
    exact requestOf_mutated hkey hf
  have hstored : Watches v.obj.key (@Stored latest v.obj.key v vd) :=
    watches_child watches_mycrd hreq
  obtain ⟨next, hcallStatus, hnext⟩ := reconcileStatus_found hkey
  rw [hcallStatus]
  refine cleans_call fun x w r x' w' h hcall => ?_
  obtain ⟨hchild, hmycrd, hheld⟩ := h
  obtain ⟨rfl, hxw⟩ := serve_read rfl hcall
  cases hxw
  have hget : w.cached.deployments.get v.obj.deployKey = some vd.obj := cached_deployment hchild
  simp only [World.serve, apply_getDeployment hget, hnext]
  refine Or.inr ⟨_, hstored, ⟨hchild, hmycrd, hheld⟩, ?_⟩
  by_cases heq : v.obj.status.availableReplicas = vd.obj.status.availableReplicas
  · -- the status is the child's: nothing is left to do
    rw [if_pos heq]
    refine cleans_ok fun x w h my hmy => ?_
    obtain rfl : v.obj = my := Option.some.inj ((cached_mycrd h.2.1).symm.trans hmy)
    exact ⟨vd.obj, cached_deployment h.1, hf, hsame, heq⟩
  · rw [if_neg heq]
    refine cleans_call fun x w r x' w' h hcall => ?_
    cases r with
    | error e => exact Or.inr ⟨fun _ _ => True, fun _ _ _ _ _ _ => Or.inr (Or.inr trivial), trivial,
        cleans_error _⟩
    | ok u =>
        obtain ⟨hr, hxw⟩ := serve_write hcall
        have hkey' : ({ v.obj with status := ⟨vd.obj.status.availableReplicas⟩ } : MyCRD).key =
          v.obj.key := rfl
        simp only [World.serve, hkey', h.2.2] at hr hxw
        split at hr
        · cases hr
        · rename_i hconflict
          rw [if_neg hconflict] at hxw
          cases hxw
          rw [Bool.not_eq_true] at hconflict
          cases hcur : (w.mycrds.feed v.obj.key).current with
          | none =>
              have hnone : w.cluster.mycrds.get v.obj.key = none := stored_mycrd hcur
              simp only [apply, hkey', hnone] at hr
              cases hr
          | some v' =>
              obtain ⟨_, _, rfl⟩ := current_of_read (Watched.past_seen h.2.1) hcur hconflict
              exact Or.inl (owed_status rfl (stored_mycrd hcur) fun hs =>
                heq (congrArg (·.availableReplicas) hs))

/-- **A run, once the custom resource is read.** -/
theorem cleans_child (hk : v.obj.key = k) :
    Cleans k (@Read latest k v) (reconcileMyCRD v.obj) := by
  subst hk
  have herror : ∀ e, ∃ P', @Watches latest v.obj.key P' ∧ (∀ x w, P' x w) ∧
      Cleans v.obj.key P' (.ret (.error e)) := fun e =>
    ⟨fun _ _ => True, fun _ _ _ _ _ _ => Or.inr (Or.inr trivial), fun _ _ => trivial, cleans_error e⟩
  rw [reconcileMyCRD_call]
  refine cleans_call fun x w r x' w' h hcall => ?_
  obtain ⟨hmycrd, hheld⟩ := h
  obtain ⟨rfl, hxw⟩ := serve_read rfl hcall
  cases hxw
  cases hseen : (w.deployments.feed v.obj.deployKey).seen with
  | none =>
      have hget : w.cached.deployments.get v.obj.deployKey = none := cached_deployment hseen
      simp only [World.serve, apply_getDeployment_none hget]
      refine Or.inr ⟨Read v.obj.key v, watches_mycrd, ⟨hmycrd, hheld⟩, ?_⟩
      rw [afterRead_absent, Prog.call_bind]
      refine cleans_call fun x w r x' w' h hcall => ?_
      cases r with
      | error e =>
          obtain ⟨P', hwatch, hP', hclean⟩ := herror (.api e)
          exact Or.inr ⟨P', hwatch, hP' _ _, hclean⟩
      | ok u =>
          obtain ⟨hr, hxw⟩ := serve_write hcall
          cases hxw
          exact Or.inl (owed_created rfl hr)
  | some vd =>
      have hget : w.cached.deployments.get v.obj.deployKey = some vd.obj := cached_deployment hseen
      obtain ⟨hkey, _, hdefault⟩ := w.cached.deployments.keyed _ _ hget
      simp only [World.serve, apply_getDeployment hget]
      rcases afterRead_found hkey hdefault with ⟨_, e, he⟩ | ⟨hf, hupdate⟩
      · rw [he]
        obtain ⟨P', hwatch, hP', hclean⟩ := herror e
        exact Or.inr ⟨P', hwatch, hP' _ _, hclean⟩
      · rw [hupdate, Prog.call_bind]
        -- the version that was read is remembered, and may be out of date
        refine Or.inr ⟨fun x w => w.deployments.Past v.obj.deployKey vd ∧
            (w.mycrds.feed v.obj.key).seen = some v ∧ x.mycrd = some v.rev ∧ x.deploy = some vd.rev,
          watches_past watches_mycrd, ⟨Watched.past_seen hseen, hmycrd, hheld, by simp⟩, ?_⟩
        refine cleans_call fun x w r x' w' h hcall => ?_
        obtain ⟨hpast, hmycrd, hheld, hdeploy⟩ := h
        cases r with
        | error e =>
            obtain ⟨P', hwatch, hP', hclean⟩ := herror (.api e)
            exact Or.inr ⟨P', hwatch, hP' _ _, hclean⟩
        | ok u =>
            obtain ⟨hr, hxw⟩ := serve_write hcall
            simp only [World.serve, mutated_key, hkey, hdeploy] at hr hxw
            split at hr
            · cases hr
            · rename_i hconflict
              rw [if_neg hconflict] at hxw
              cases hxw
              rw [Bool.not_eq_true] at hconflict
              cases hcur : (w.deployments.feed v.obj.deployKey).current with
              | none =>
                  have hnone : w.cluster.deployments.get v.obj.deployKey = none := stored_deployment hcur
                  simp only [apply, mutated_key, hkey, hnone] at hr
                  cases hr
              | some v' =>
                  obtain ⟨hseen', _, rfl⟩ := current_of_read hpast hcur hconflict
                  have hstored : w.cluster.deployments.get v.obj.deployKey = some v'.obj :=
                    stored_deployment hcur
                  rcases owed_updated rfl hstored hf hr with ⟨hsame, hw⟩ | howed
                  · refine Or.inr ⟨Stored v.obj.key v v', watches_child watches_mycrd ?_, ?_,
                      cleans_status rfl hkey hf hsame⟩
                    · rw [← hsame]
                      exact requestOf_mutated hkey hf
                    · rw [deployKey_key, hw]
                      exact ⟨hseen', hmycrd, hheld⟩
                  · exact Or.inl howed

end Child

/-- **A run of `Reconcile`** that succeeds leaves the request clean. -/
theorem cleans_reconcile (k : Key) :
    @Cleans latest k (fun _ _ => True) (reconcile k) := by
  rw [reconcile_call]
  refine cleans_call fun x w r x' w' _ hcall => ?_
  obtain ⟨rfl, hxw⟩ := serve_read rfl hcall
  cases hxw
  cases hseen : (w.mycrds.feed k).seen with
  | none =>
      have hget : w.cached.mycrds.get k = none := cached_mycrd hseen
      simp only [World.serve, apply_getMyCRD_none hget]
      refine Or.inr ⟨_, watches_mycrd (o := none) (P := fun _ => True), ⟨hseen, trivial⟩, ?_⟩
      refine cleans_ok fun x w h my hmy => ?_
      cases (cached_mycrd h.1).symm.trans hmy
  | some v =>
      have hget : w.cached.mycrds.get k = some v.obj := cached_mycrd hseen
      simp only [World.serve, apply_getMyCRD hget]
      exact Or.inr ⟨Read k v, watches_mycrd, ⟨hseen, by simp⟩,
        cleans_child (w.cached.mycrds.keyed k _ hget)⟩

/-! ## 7. Every state that is reached -/

/-- **A request that is neither queued nor due is at rest**, and stays so. -/
theorem tracks (latest : String → Bool) : ControlLoop.Tracks (operator latest) Clean where
  restart k w reqs w' h := by
    cases h with
    | list hmycrds hdeployments =>
        cases hmy : w.cluster.mycrds.get k with
        | some my => exact Or.inl (hmycrds k my hmy)
        | none =>
            refine Or.inr (Or.inr fun my hmy' => ?_)
            rw [World.cached, Watched.relist_cache] at hmy'
            cases hmy.symm.trans hmy'
  others k w q reqs w' hs h := by
    rcases h with hq | ho | hrest
    · exact Or.inl (List.mem_append_left _ hq)
    · rcases owed_others hs ho with hr | ho'
      · exact Or.inl (List.mem_append_right _ hr)
      · exact Or.inr (Or.inl ho')
    · rcases atRest_others hs hrest with hr | hrest'
      · exact Or.inl (List.mem_append_right _ hr)
      · exact Or.inr (Or.inr hrest')
  call k op x w r x' w' q hcall h := by
    obtain ⟨hcached, howed⟩ := call_keeps hcall
    refine h.imp id (Or.imp howed fun hrest => ?_)
    rw [hcached]
    exact hrest
  removed k k' w q hne h := h.imp (fun hq => List.mem_filter.mpr ⟨hq, by simpa using hne⟩) id
  queued k w q := Or.inl List.mem_cons_self
  more k k' w q h := h.imp (List.mem_cons_of_mem k') id
  reconcile k := (cleans_reconcile k).mono fun _ _ _ _ => Or.inr (Or.inr trivial)

/-- The operator and its world. -/
abbrev Loop (latest : String → Bool) : Type :=
  ControlLoop.State Key ApiCall Answer Err Held (World latest)

/-- **Nothing is queued, under way or pending** for the custom resource under `k`. -/
structure QuietFor (k : Key) (st : Loop latest) : Prop where
  queue : k ∉ st.queue
  worker : ∀ wk, st.worker = some wk → wk.req ≠ k
  mycrd : (st.store.mycrds.feed k).pending = []
  child : (st.store.deployments.feed (childKey k)).pending = []

theorem Fixed.reconciled {c : Cluster latest} (hmy : c.mycrds.get my.key = some my)
    (hd : c.deployments.get my.deployKey = some d) (h : Fixed my d latest) :
    reconciled my.key c = c := by
  obtain ⟨hkey, hvalid, _⟩ := c.deployments.keyed _ _ hd
  have hbase : base my c = d := base_some hd
  have ha : Accepted my c := by
    rw [Accepted, hbase, ← valid_setDefaults latest, h.same, hvalid]
  have hwritten : written my c ha = c :=
    written_again (d := d) (by rw [hd, h.same]) ha
  rw [reconciled_settled hmy (hbase ▸ h.own) ha, settled, hwritten, reported, hbase]
  exact putMyCRD_upToDate hmy h.status

/-- When nothing is queued, under way or pending, a run would change nothing. -/
theorem quiet_fixed {st : Loop latest} (h : ControlLoop.Reachable (operator latest) st)
    (hq : QuietFor k st) (hmy : st.store.cluster.mycrds.get k = some my) :
    ∃ d, st.store.cluster.deployments.get (childKey k) = some d ∧ Fixed my d latest := by
  have hmycrds : st.store.cached.mycrds.get k = st.store.cluster.mycrds.get k :=
    Watched.cache_eq_stored _ hq.mycrd
  have hdeployments : st.store.cached.deployments.get (childKey k) =
      st.store.cluster.deployments.get (childKey k) := Watched.cache_eq_stored _ hq.child
  rcases ControlLoop.run_clean (tracks latest) h hq.worker with hqueued | howed | hrest
  · exact absurd hqueued hq.queue
  · rcases howed with hp | ⟨hp, _⟩
    · exact absurd hq.mycrd hp
    · exact absurd hq.child hp
  · obtain ⟨d, hd, hfixed⟩ := hrest my (hmycrds.trans hmy)
    exact ⟨d, hdeployments.symm.trans hd, hfixed⟩

/-- **A quiet operator has done its work**: in every state that is reached, whoever writes what in
    between, if nothing is queued, under way or pending for a custom resource, its child is what the
    specification asks for, its status is the child's, and another run changes nothing. -/
theorem quiet_converged {st : Loop latest} (h : ControlLoop.Reachable (operator latest) st)
    (hq : QuietFor my.key st) (hmy : st.store.cluster.mycrds.get my.key = some my) :
    ∃ child, st.store.cluster.deployments.get my.deployKey = some child ∧ Desired my child ∧
      my.status.availableReplicas = child.status.availableReplicas ∧
      reconciled my.key st.store.cluster = st.store.cluster := by
  obtain ⟨d, hd, hfixed⟩ := quiet_fixed h hq hmy
  refine ⟨d, hd, ?_, hfixed.status, hfixed.reconciled hmy hd⟩
  have hdesired : Desired my ((mutated my d).setDefaults latest) := desired_mutated hfixed.own
  rwa [hfixed.same] at hdesired

/-- The demo and its child, when the operator starts. -/
def demoWorld : World fun _ => false :=
  ⟨.of (settled demo demoCluster demo_accepted).mycrds,
    .of (settled demo demoCluster demo_accepted).deployments⟩

def demoRun : List (Made ApiCall Answer) × Except Err Unit × Held × World fun _ => false :=
  (reconcile demo.key).run (World.serve fun _ => false) ({}, demoWorld)

/-- The run succeeds, and its update changes nothing. -/
theorem demoRun_quiet : (demoRun.2.1.isOk && (demoRun.2.2.2.mycrds.feed demo.key).pending.isEmpty &&
    (demoRun.2.2.2.deployments.feed (childKey demo.key)).pending.isEmpty) = true := by
  decide +kernel

theorem demoWorld_cluster : demoWorld.cluster = settled demo demoCluster demo_accepted :=
  Cluster.ext (Watched.of_stored _) (Watched.of_stored _)

/-- When the operator starts, the demo is queued. -/
theorem demo_restart : Restart demoWorld [demo.key] demoWorld := by
  refine .list demoWorld [demo.key] (fun k my hmy => ?_) fun k d r hd hr => ?_
  · rw [demoWorld_cluster, settled_mycrds] at hmy
    split at hmy
    · rename_i hk
      exact List.mem_singleton.mpr hk
    · rename_i hk
      rw [show demoCluster.mycrds.get k = none from Function.update_of_ne hk ..] at hmy
      cases hmy
  · rw [demoWorld_cluster, settled, Cluster.putMyCRD_deployments, written,
      Cluster.putDeployment_get] at hd
    split at hd
    · cases hd
      rw [requestOf_mutated rfl rfl, Option.some.injEq] at hr
      exact List.mem_singleton.mpr hr.symm
    · cases hd

/-- The operator starts beside the demo and its child, and runs once. -/
theorem demo_reached : ControlLoop.Reachable (operator fun _ => false) ⟨demoRun.2.2.2, [], none⟩ := by
  have hboot := ControlLoop.Reachable.boot (S := operator fun _ => false) demo_restart
  have hstart := hboot.step (.start demoWorld [demo.key] demo.key (List.mem_singleton_self _))
  have hrun := ControlLoop.run_exec hstart
    (exec_run (E := (operator fun _ => false).call) (fun _ _ => .done) (reconcile demo.key) _)
  have hok : demoRun.2.1 = .ok () := by
    have hquiet := demoRun_quiet
    cases hr : demoRun.2.1 with
    | ok u => rfl
    | error e => simp [hr, Except.isOk, Except.toBool] at hquiet
  have hfilter : [demo.key].filter (· ≠ demo.key) = [] := by simp
  rw [hfilter] at hrun
  exact ControlLoop.Reachable.step hrun (hok ▸ .done _ _ _ _)

theorem quiet_converged_demo : ∃ child,
    demoRun.2.2.2.cluster.deployments.get demo.deployKey = some child ∧ Desired demo child ∧
      demo.status.availableReplicas = child.status.availableReplicas ∧
      reconciled demo.key demoRun.2.2.2.cluster = demoRun.2.2.2.cluster := by
  have hquiet := demoRun_quiet
  simp only [Bool.and_eq_true, List.isEmpty_iff] at hquiet
  exact quiet_converged demo_reached
    ⟨List.not_mem_nil, fun _ h => (nomatch h), hquiet.1.2, hquiet.2⟩ (by decide +kernel)

end Operator
