/-
  File:      BlogDemo/Lib/Kube/Watch.lean
  Subject:   OBJECTS WITH RESOURCE VERSIONS, AND THE INFORMER THAT WATCHES THEM. Every write gives an
             object a version of its own; the informer's cache learns the states of an object one after
             the other, some time after they were stored.

  * `Feed` -- one object: what the cache has of it, and what has become of it since;
  * `Feed.Ordered` -- its versions are increasing;
    **`current_eq_seen`** -- an object that still has the version the cache has is what the cache has;
  * `Watched` -- all the objects of a kind, each feed in order;
    `set`, `tell`, `relist` -- a write, the next event of an object, and a new list of all of them;
  * `Watched.Past` -- a version the cache has, or has had (`past_set`, `past_tell`);
    **`past_current`** -- when the object still has it, the cache does.
-/
import BlogDemo.Lib.Keyed
import Mathlib.Data.List.Pairwise

namespace Kube

variable {K V : Type}

/-- An object with its resource version. -/
structure Version (V : Type) where
  rev : Nat
  obj : V
  deriving DecidableEq

/-! ## 1. One object -/

/-- **One object and its informer**: what the cache has of it, and what it has become since, oldest
    first (`none`: it was deleted). -/
structure Feed (V : Type) where
  seen : Option (Version V)
  pending : List (Option (Version V))

namespace Feed

variable {f : Feed V} {n : Nat} {v v' : Version V} {o : Option (Version V)}

/-- What the server has. -/
def current (f : Feed V) : Option (Version V) := f.pending.getLastD f.seen

def states (f : Feed V) : List (Option (Version V)) := f.seen :: f.pending

def revs (f : Feed V) : List Nat := f.states.filterMap fun s => s.map (·.rev)

/-- The object is written. -/
def push (f : Feed V) (o : Option (Version V)) : Feed V := { f with pending := f.pending ++ [o] }

/-- The informer learns the next state of the object. -/
def tell (f : Feed V) : Feed V :=
  match f.pending with
  | [] => f
  | o :: rest => ⟨o, rest⟩

@[simp] theorem push_current : (f.push o).current = o := by
  simp [push, current]

@[simp] theorem push_seen : (f.push o).seen = f.seen := rfl

@[simp] theorem push_states : (f.push o).states = f.states ++ [o] := rfl

theorem current_mem (f : Feed V) : f.current ∈ f.states := by
  unfold current states
  cases hp : f.pending with
  | nil => exact List.mem_cons_self
  | cons o rest =>
      rw [List.getLastD_cons]
      exact List.mem_cons_of_mem _ (by cases rest <;> simp [List.getLastD])

theorem tell_states (f : Feed V) : ∀ o ∈ f.tell.states, o ∈ f.states := by
  unfold tell
  split
  · exact fun _ h => h
  · rename_i o rest hp
    intro o' ho'
    rw [states, hp]
    exact List.mem_cons_of_mem _ ho'

@[simp] theorem tell_current (f : Feed V) : f.tell.current = f.current := by
  unfold tell
  split
  · rfl
  · rename_i o rest hp
    simp only [current, hp, List.getLastD_cons]

theorem mem_revs {r : Nat} : r ∈ f.revs ↔ ∃ v, some v ∈ f.states ∧ v.rev = r := by
  constructor
  · intro h
    obtain ⟨o, ho, hr⟩ := List.mem_filterMap.mp h
    obtain ⟨v, rfl, hv⟩ := Option.map_eq_some_iff.mp hr
    exact ⟨v, ho, hv⟩
  · intro h
    obtain ⟨v, hv, rfl⟩ := h
    exact List.mem_filterMap.mpr ⟨some v, hv, rfl⟩

/-- **The versions of an object are increasing**, and below `n`. -/
structure Ordered (n : Nat) (f : Feed V) : Prop where
  increasing : f.revs.Pairwise (· < ·)
  below : ∀ r ∈ f.revs, r < n

theorem Ordered.mono {n' : Nat} (h : Ordered n f) (hn : n ≤ n') : Ordered n' f :=
  ⟨h.increasing, fun r hr => Nat.lt_of_lt_of_le (h.below r hr) hn⟩

/-- A write gives the next version. -/
theorem Ordered.push (h : Ordered n f) (o : Option V) :
    Ordered (n + 1) (f.push (o.map (⟨n, ·⟩))) := by
  have hrevs : (f.push (o.map (⟨n, ·⟩))).revs = f.revs ++ (o.map fun _ => n).toList := by
    cases o <;> simp [revs, List.filterMap_append]
  constructor
  · rw [hrevs]
    refine List.pairwise_append.mpr ⟨h.increasing, by cases o <;> simp, fun r hr r' hr' => ?_⟩
    have hr'n : r' = n := by cases o <;> simp_all
    have hrn := h.below r hr
    omega
  · intro r hr
    rw [hrevs] at hr
    rcases List.mem_append.mp hr with hr | hr
    · have hrn := h.below r hr
      omega
    · have hrn : r = n := by cases o <;> simp_all
      omega

theorem Ordered.tell (h : Ordered n f) : Ordered n f.tell := by
  unfold Feed.tell
  split
  · exact h
  · rename_i o rest hp
    have hrevs : f.revs = (f.seen.map (·.rev)).toList ++ (⟨o, rest⟩ : Feed V).revs := by
      cases hs : f.seen <;> simp [revs, states, hp, hs]
    refine ⟨?_, fun r hr => h.below r (hrevs ▸ List.mem_append_right _ hr)⟩
    have hinc := h.increasing
    rw [hrevs] at hinc
    exact (List.pairwise_append.mp hinc).2.1

/-- Everything that is pending is newer than what the cache has. -/
theorem Ordered.newer (h : Ordered n f) (hv : f.seen = some v) (hv' : some v' ∈ f.pending) :
    v.rev < v'.rev := by
  have hrevs : f.revs = v.rev :: f.pending.filterMap fun s => s.map (·.rev) := by
    simp [revs, states, hv]
  have hinc := h.increasing
  rw [hrevs, List.pairwise_cons] at hinc
  exact hinc.1 _ (List.mem_filterMap.mpr ⟨some v', hv', rfl⟩)

/-- **An object that still has the version the cache has** is what the cache has. -/
theorem current_eq_seen (h : Ordered n f) (hv : f.seen = some v) (hv' : f.current = some v')
    (hrev : v'.rev = v.rev) : f.pending = [] ∧ v' = v := by
  cases hp : f.pending with
  | nil =>
      rw [current, hp, List.getLastD_nil, hv, Option.some.injEq] at hv'
      exact ⟨rfl, hv'.symm⟩
  | cons o rest =>
      -- otherwise its version would be newer
      have hmem : some v' ∈ f.pending := by
        rw [← hv', current, hp, List.getLastD_cons]
        cases rest <;> simp [List.getLastD]
      have hlt := h.newer hv hmem
      omega

end Feed

/-! ## 2. The objects of a kind -/

/-- **The objects of a kind, and their informer.** -/
structure Watched (K V : Type) (key : V → K → Prop) where
  feed : K → Feed V
  next : Nat
  ordered : ∀ k, (feed k).Ordered next
  keyed : ∀ k v, some v ∈ (feed k).states → key v.obj k

namespace Watched

variable {key : V → K → Prop} (s : Watched K V key) {k k' : K} {o : Option V} {v v' : Version V}

/-- The cache. -/
def cache : Keyed K V key where
  get k := (s.feed k).seen.map (·.obj)
  keyed k v h := by
    obtain ⟨u, hu, rfl⟩ := Option.map_eq_some_iff.mp h
    exact s.keyed k u (hu ▸ List.mem_cons_self)

/-- What the server has. -/
def stored : Keyed K V key where
  get k := (s.feed k).current.map (·.obj)
  keyed k v h := by
    obtain ⟨u, hu, rfl⟩ := Option.map_eq_some_iff.mp h
    exact s.keyed k u (hu ▸ (s.feed k).current_mem)

theorem cache_get (k : K) : s.cache.get k = (s.feed k).seen.map (·.obj) := rfl

theorem stored_get (k : K) : s.stored.get k = (s.feed k).current.map (·.obj) := rfl

/-- Nothing is pending: the cache has what the server has. -/
theorem cache_eq_stored (h : (s.feed k).pending = []) : s.cache.get k = s.stored.get k := by
  rw [cache_get, stored_get, Feed.current, h, List.getLastD_nil]

/-- Objects that were stored once, and that the cache has. -/
def of (c : Keyed K V key) : Watched K V key where
  feed k := ⟨(c.get k).map (⟨0, ·⟩), []⟩
  next := 1
  ordered k := by
    constructor
    · cases h : c.get k <;> simp [Feed.revs, Feed.states]
    · intro r hr
      obtain ⟨v, hv, rfl⟩ := Feed.mem_revs.mp hr
      obtain ⟨o, _, rfl⟩ := Option.map_eq_some_iff.mp (List.mem_singleton.mp hv).symm
      exact Nat.one_pos
  keyed k v hv := by
    obtain ⟨o, ho, rfl⟩ := Option.map_eq_some_iff.mp (List.mem_singleton.mp hv).symm
    exact c.keyed k o ho

theorem of_stored (c : Keyed K V key) : (of c).stored = c := by
  ext1
  funext k
  rw [stored_get]
  exact (Option.map_map ..).trans Option.map_id'

variable [DecidableEq K] [DecidableEq V]

/-- **A write** of `o` under `k`; what the server has already is not written. -/
def set (k : K) (o : Option V) (h : ∀ v, o = some v → key v k) : Watched K V key :=
  if s.stored.get k = o then s
  else
    { feed := Function.update s.feed k ((s.feed k).push (o.map (⟨s.next, ·⟩)))
      next := s.next + 1
      ordered := fun k' => by
        by_cases hk : k' = k
        · subst hk
          rw [Function.update_self]
          exact (s.ordered k').push o
        · rw [Function.update_of_ne hk]
          exact (s.ordered k').mono (Nat.le_succ _)
      keyed := fun k' v hv => by
        by_cases hk : k' = k
        · subst hk
          rw [Function.update_self, Feed.push_states] at hv
          rcases List.mem_append.mp hv with hv | hv
          · exact s.keyed k' v hv
          · obtain ⟨w, hw, rfl⟩ := Option.map_eq_some_iff.mp (List.mem_singleton.mp hv).symm
            exact h w hw
        · rw [Function.update_of_ne hk] at hv
          exact s.keyed k' v hv }

omit [DecidableEq V] in
/-- The informer learns the next state of the object under `k`. -/
def tell (k : K) : Watched K V key where
  feed := Function.update s.feed k (s.feed k).tell
  next := s.next
  ordered k' := by
    by_cases hk : k' = k
    · subst hk
      rw [Function.update_self]
      exact (s.ordered k').tell
    · rw [Function.update_of_ne hk]
      exact s.ordered k'
  keyed k' v hv := by
    by_cases hk : k' = k
    · subst hk
      rw [Function.update_self] at hv
      exact s.keyed k' v ((s.feed k').tell_states _ hv)
    · rw [Function.update_of_ne hk] at hv
      exact s.keyed k' v hv

omit [DecidableEq K] [DecidableEq V] in
/-- All the objects are listed again, and the cache has what the server has. -/
def relist : Watched K V key where
  feed k := ⟨(s.feed k).current, []⟩
  next := s.next
  ordered k := by
    refine ⟨?_, fun r hr => (s.ordered k).below r ?_⟩
    · cases h : (s.feed k).current <;> simp [Feed.revs, Feed.states]
    · obtain ⟨v, hv, rfl⟩ := Feed.mem_revs.mp hr
      exact Feed.mem_revs.mpr ⟨v, List.mem_singleton.mp hv ▸ (s.feed k).current_mem, rfl⟩
  keyed k v hv := s.keyed k v (List.mem_singleton.mp hv ▸ (s.feed k).current_mem)

variable {h : ∀ v, o = some v → key v k}

theorem set_same (ho : s.stored.get k = o) : s.set k o h = s := by
  rw [set, if_pos ho]

theorem set_feed (ho : s.stored.get k ≠ o) (k' : K) : (s.set k o h).feed k' =
    if k' = k then (s.feed k).push (o.map (⟨s.next, ·⟩)) else s.feed k' := by
  rw [set, if_neg ho]
  exact Function.update_apply ..

theorem set_next : s.next ≤ (s.set k o h).next := by
  unfold set
  split
  · exact Nat.le_refl _
  · exact Nat.le_succ _

/-- A write concerns one object. -/
theorem set_feed_of_ne (hk : k' ≠ k) : (s.set k o h).feed k' = s.feed k' := by
  by_cases ho : s.stored.get k = o
  · rw [set_same s ho]
  · rw [set_feed s ho, if_neg hk]

/-- A write goes past the cache. -/
theorem set_seen (k' : K) : ((s.set k o h).feed k').seen = (s.feed k').seen := by
  by_cases ho : s.stored.get k = o
  · rw [set_same s ho]
  · rw [set_feed s ho]
    split
    · rename_i hk
      rw [hk, Feed.push_seen]
    · rfl

theorem set_cache : (s.set k o h).cache = s.cache := by
  ext1
  funext k'
  rw [cache_get, set_seen, cache_get]

theorem set_stored (k' : K) :
    (s.set k o h).stored.get k' = if k' = k then o else s.stored.get k' := by
  by_cases ho : s.stored.get k = o
  · rw [set_same s ho]
    split
    · rename_i hk
      rw [hk, ho]
    · rfl
  · rw [stored_get, set_feed s ho]
    split
    · rw [Feed.push_current, Option.map_map]
      exact Option.map_id'
    · rfl

/-- A write only adds to what is pending. -/
theorem set_pending (k' : K) : ∃ l, ((s.set k o h).feed k').pending = (s.feed k').pending ++ l := by
  by_cases ho : s.stored.get k = o
  · exact ⟨[], by rw [set_same s ho, List.append_nil]⟩
  · rw [set_feed s ho]
    split
    · rename_i hk
      exact ⟨_, by rw [hk]; rfl⟩
    · exact ⟨[], (List.append_nil _).symm⟩

omit [DecidableEq V] in
theorem tell_feed (k' : K) :
    (s.tell k).feed k' = if k' = k then (s.feed k).tell else s.feed k' :=
  Function.update_apply ..

omit [DecidableEq V] in
theorem tell_feed_of_ne (hk : k' ≠ k) : (s.tell k).feed k' = s.feed k' :=
  Function.update_of_ne hk ..

omit [DecidableEq V] in
theorem tell_cache_of_ne (hk : k' ≠ k) : (s.tell k).cache.get k' = s.cache.get k' := by
  rw [cache_get, tell_feed_of_ne s hk, cache_get]

omit [DecidableEq V] in
/-- The server does not notice. -/
theorem tell_stored : (s.tell k).stored = s.stored := by
  ext1
  funext k'
  rw [stored_get, stored_get, tell_feed]
  split
  · rename_i hk
    rw [Feed.tell_current, hk]
  · rfl

omit [DecidableEq K] [DecidableEq V] in
theorem relist_cache : s.relist.cache = s.stored := by
  ext1
  funext k'
  rfl

/-! ## 3. Versions that were read -/

omit [DecidableEq K] [DecidableEq V] in
/-- **The cache has, or has had, `v` under `k`.** -/
structure Past (k : K) (v : Version V) : Prop where
  below : v.rev < s.next
  newer : (s.feed k).seen = some v ∨ ∀ r ∈ (s.feed k).revs, v.rev < r

variable {s}

omit [DecidableEq K] [DecidableEq V] in
theorem past_seen (hv : (s.feed k).seen = some v) : s.Past k v :=
  ⟨(s.ordered k).below _ (Feed.mem_revs.mpr ⟨v, hv ▸ List.mem_cons_self, rfl⟩), Or.inl hv⟩

omit [DecidableEq K] [DecidableEq V] in
/-- **When the object still has this version**, the cache has it, and nothing is pending. -/
theorem past_current (hp : s.Past k v) (hv' : (s.feed k).current = some v') (hrev : v'.rev = v.rev) :
    (s.feed k).seen = some v ∧ (s.feed k).pending = [] ∧ v' = v := by
  rcases hp.newer with hv | hnewer
  · obtain ⟨hpending, heq⟩ := Feed.current_eq_seen (s.ordered k) hv hv' hrev
    exact ⟨hv, hpending, heq⟩
  · have hlt := hnewer v'.rev (Feed.mem_revs.mpr ⟨v', hv' ▸ Feed.current_mem _, rfl⟩)
    omega

theorem past_set (hp : s.Past k v) {h : ∀ v, o = some v → key v k'} : (s.set k' o h).Past k v := by
  refine ⟨Nat.lt_of_lt_of_le hp.below (set_next s), ?_⟩
  by_cases ho : s.stored.get k' = o
  · rw [set_same s ho]
    exact hp.newer
  · rw [set_feed s ho]
    split
    · rename_i hk
      subst hk
      refine hp.newer.imp id fun hnewer r hr => ?_
      obtain ⟨u, hu, rfl⟩ := Feed.mem_revs.mp hr
      rw [Feed.push_states] at hu
      rcases List.mem_append.mp hu with hu | hu
      · exact hnewer _ (Feed.mem_revs.mpr ⟨u, hu, rfl⟩)
      · obtain ⟨w, _, rfl⟩ := Option.map_eq_some_iff.mp (List.mem_singleton.mp hu).symm
        exact hp.below
    · exact hp.newer

omit [DecidableEq V] in
theorem past_tell (hp : s.Past k v) : (s.tell k').Past k v := by
  refine ⟨hp.below, ?_⟩
  rw [tell_feed]
  split
  · rename_i hk
    subst hk
    cases hpending : (s.feed k).pending with
    | nil =>
        have htell : (s.feed k).tell = s.feed k := by simp only [Feed.tell, hpending]
        rw [htell]
        exact hp.newer
    | cons o rest =>
        -- what the cache has now was pending, so it is newer
        refine Or.inr fun r hr => ?_
        have htell : (s.feed k).tell = ⟨o, rest⟩ := by simp only [Feed.tell, hpending]
        obtain ⟨u, hu, rfl⟩ := Feed.mem_revs.mp hr
        rw [htell] at hu
        have hmem : some u ∈ (s.feed k).pending := hpending ▸ hu
        rcases hp.newer with hv | hnewer
        · exact (s.ordered k).newer hv hmem
        · exact hnewer _ (Feed.mem_revs.mpr ⟨u, List.mem_cons_of_mem _ hmem, rfl⟩)
  · exact hp.newer

end Watched

end Kube
