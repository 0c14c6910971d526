/-
  File:      BlogDemo/Cdn/Uploads.lean
  Subject:   THE IMAGE WORKER WHILE OBJECTS CHANGE. Any family of requests, interleaved call by call;
             between the calls others put objects to R2 and delete them. What the cache holds it keeps.

  * `Live` -- what a call does, over what R2 holds at that moment;
  * **`image_frozen`** -- an image that is cached, with no request for it under way, is what a GET of
    its URL is answered with ever after, whatever is uploaded, but for GETs of a part of it or on a
    condition (`plain`).
-/
import BlogDemo.Cdn.Cache

namespace Cdn

open Js Atomic Uri Whatwg

variable {H : Authorities} {ι : Type}

/-! ## 1. Calls while objects change -/

/-- What R2 holds. -/
abbrev Bucket := String → Option R2Object

/-- The image service, by what R2 holds. -/
abbrev Imaging := Bucket → Service

/-- The request asks for no part of the response, and for it on no condition. -/
def plain (headers : Headers) : Bool :=
  ["range", "if-none-match", "if-modified-since"].all fun name => (headers name).isNone

/-- **What `cache.match` makes of what is stored**: a request that is not plain may be answered 206
    or 304 instead. -/
inductive Matched (k : CacheKey) : Option Response → Option Response → Prop where
  | whole (stored : Option Response) : Matched k stored stored
  | partly (stored r : Response) (hk : plain k.headers = false)
      (hr : r.status = 206 ∨ r.status = 304) : Matched k (some stored) (some r)

/-- **What a call does**, when others have made `b'` of what R2 held before it. What is put is put
    for a GET; the cache refuses other methods. -/
inductive Live (imaging : Imaging) : Effect Op Answer (Bucket × CacheStore) where
  | failed (op : Op) (e : Error) (b b' : Bucket) (s : CacheStore) :
      Live imaging op (b, s) (.error e) (b', s)
  | get (key : String) (b b' : Bucket) (s : CacheStore) :
      Live imaging (.get key) (b, s) (.ok (b' key)) (b', s)
  | cacheMatch (k : CacheKey) (b b' : Bucket) (s : CacheStore) (x : Option Response)
      (hx : Matched k (s k.matched) x) : Live imaging (.cacheMatch k) (b, s) (.ok x) (b', s)
  | fetch (sub : Subrequest) (b b' : Bucket) (s : CacheStore) :
      Live imaging (.fetch sub) (b, s) (imaging b' sub) (b', s)
  | put (k : CacheKey) (r : Response) (b b' : Bucket) (s : CacheStore) (hk : k.method = "GET") :
      Live imaging (.put k r) (b, s) (.ok ()) (b', Function.update s k.matched (some r))

abbrev Worker (ι : Type) := Config ι Op Answer (Except Error Response) (Bucket × CacheStore)

/-- The requests before their first call, over the empty cache. -/
def begin (requests : ι → Request H) (bucket : Bucket) : Worker ι :=
  Config.init (bucket, fun _ => none) fun i => fetch (requests i)

/-- The request is for an image, which is cached under `k`. -/
def Asks (request : Request H) (k : String × String) : Prop :=
  ∃ url key, route request = .image url key ∧ (cacheKeyOf request url).matched = k

/-- What a request puts into the cache it puts under its own key. -/
def PutsOwn (request : Request H) (op : Op) : Prop := ∀ k r, op = .put k r → Asks request k.matched

theorem fetch_putsOwn (request : Request H) : (fetch request).Issues (PutsOwn request) := by
  rw [fetch_route]
  cases hroute : route request with
  | notAllowed => trivial
  | malformed => trivial
  | missingKey => trivial
  | notFound => trivial
  | raw key =>
      show Prog.Issues _ (serveRawFromR2 request key).run
      rw [serveRaw_calls]
      refine ⟨fun k r h => (by cases h), fun answer => ?_⟩
      cases answer <;> trivial
  | image url key =>
      refine ⟨fun k r h => (by cases h), fun answer => ?_⟩
      match answer with
      | .error e => trivial
      | .ok (some cached) => trivial
      | .ok none =>
          refine ⟨fun k r h => (by cases h), fun answer => ?_⟩
          cases answer with
          | error e => trivial
          | ok resp =>
              dsimp only
              split
              · trivial
              · refine ⟨fun k r h => ?_, fun _ => trivial⟩
                cases h
                exact ⟨url, key, hroute, rfl⟩

/-! ## 2. A cached image -/

section Frozen

variable [DecidableEq ι] {imaging : Imaging} {requests : ι → Request H} {b : Bucket}
  {c c' : Worker ι} {k : String × String} {r : Response}

/-- In every run each request puts what it puts under its own key. -/
theorem run_putsOwn (h : Run (Live imaging) free (begin requests b) c) (j : ι) :
    (c.pool j).Issues (PutsOwn (requests j)) := by
  induction h with
  | start => exact fetch_putsOwn (requests j)
  | @step c₁ c₂ e _ hs ih =>
      obtain ⟨next, hp, hnext⟩ := hs.program
      by_cases hj : j = e.who
      · subst hj
        rw [hp] at ih
        rw [hnext]
        exact ih.2 e.res
      · rw [hs.others hj]
        exact ih

/-- A call changes what is cached under its own key only. -/
theorem live_cache {op : Op} {s s' : Bucket × CacheStore} {x : Answer op}
    (he : Live imaging op s x s') (hop : ∀ k' r', op = .put k' r' → k'.matched ≠ k) :
    s'.2 k = s.2 k := by
  cases he with
  | failed => rfl
  | get => rfl
  | cacheMatch => rfl
  | fetch => rfl
  | put k' r' => exact Function.update_of_ne (hop k' r' rfl).symm _ _

/-- A request for an image begins with a look into the cache. -/
theorem Asks.begins {request : Request H} (h : Asks request k) : ∃ ck : CacheKey, ck.matched = k ∧
    ck.headers = request.headers ∧ ∃ next, fetch request = .call (.cacheMatch ck) next ∧
      (∀ r, next (.ok (some r)) = .ret (.ok r)) ∧
      ∀ e, next (.error e) = .ret (.ok errorResponse) := by
  obtain ⟨url, key, hroute, hmatched⟩ := h
  rw [fetch_route, hroute]
  exact ⟨_, hmatched, rfl, _, rfl, fun _ => rfl, fun _ => rfl⟩

/-- What a request for the image may have left to do: it was at its end, or it has not begun, or it
    is answered. -/
def Settled (request : Request H) (r : Response) (p₀ p : Prog Op Answer (Except Error Response)) :
    Prop :=
  p₀.Final ∧ p = p₀ ∨ p = fetch request ∨
    ∃ out, p = .ret (.ok out) ∧ (plain request.headers = true → out = r ∨ out = errorResponse)

/-- The first call of a request for a cached image is its last. -/
theorem settled_call {request : Request H} {p₀ p : Prog Op Answer (Except Error Response)}
    (hset : Settled request r p₀ p) (hasks : Asks request k) {op : Op}
    {next : Answer op → Prog Op Answer (Except Error Response)} (hp : p = .call op next)
    {s s' : Bucket × CacheStore} (hk : s.2 k = some r) {x : Answer op}
    (he : Live imaging op s x s') : Settled request r p₀ (next x) ∧ s'.2 k = some r := by
  rcases hset with ⟨⟨a, ha⟩, rfl⟩ | rfl | ⟨out, rfl, -⟩
  · rw [ha] at hp
    cases hp
  · obtain ⟨ck, hck, hheaders, next', hfetch, hfound, hfailed⟩ := hasks.begins
    rw [hfetch] at hp
    cases hp
    refine ⟨?_, (live_cache he fun k' r' h => by cases h).trans hk⟩
    cases he with
    | failed _ e => exact Or.inr (Or.inr ⟨_, hfailed e, fun _ => Or.inr rfl⟩)
    | cacheMatch _ b b' s x hx =>
        have hs : s ck.matched = some r := hck ▸ hk
        rw [hs] at hx
        cases hx with
        | whole => exact Or.inr (Or.inr ⟨_, hfound r, fun _ => Or.inl rfl⟩)
        | partly _ r' hspecial hr' =>
            refine Or.inr (Or.inr ⟨_, hfound r', fun hplain => ?_⟩)
            rw [hheaders, hplain] at hspecial
            cases hspecial
  · cases hp

/-- A step keeps the image, and what its requests may have left to do. -/
theorem settled_step {p₀ : ι → Prog Op Answer (Except Error Response)} {e : Call ι Op Answer}
    (hown : (c.pool e.who).Issues (PutsOwn (requests e.who))) (hk : c.store.2 k = some r)
    (hset : ∀ i, Asks (requests i) k → Settled (requests i) r (p₀ i) (c.pool i))
    (hs : Step (Live imaging) free c e c') :
    c'.store.2 k = some r ∧ ∀ i, Asks (requests i) k →
      Settled (requests i) r (p₀ i) (c'.pool i) := by
  obtain ⟨next, hp, hnext⟩ := hs.program
  have hothers : ∀ j, j ≠ e.who → Asks (requests j) k →
      Settled (requests j) r (p₀ j) (c'.pool j) := by
    intro j hj hasks
    rw [hs.others hj]
    exact hset j hasks
  by_cases hi : Asks (requests e.who) k
  · obtain ⟨hset', hk'⟩ := settled_call (hset e.who hi) hi hp hk hs.effect
    refine ⟨hk', fun j hasks => ?_⟩
    by_cases hj : j = e.who
    · subst hj
      rw [hnext]
      exact hset'
    · exact hothers j hj hasks
  · -- a request for something else
    rw [hp] at hown
    have hsame : c'.store.2 k = c.store.2 k :=
      live_cache hs.effect fun k' r' hop hk' => hi (hk' ▸ hown.1 k' r' hop)
    refine ⟨hsame.trans hk, fun j hasks => hothers j ?_ hasks⟩
    rintro rfl
    exact hi hasks

/-- **A cached image is frozen**: from when no request for it is under way a request for it that is
    plain is answered with what was stored, or with the 500 of a cache that failed, whatever others do
    to the object. -/
theorem image_frozen (h : Run (Live imaging) free (begin requests b) c) (hk : c.store.2 k = some r)
    (hquiet : ∀ i, Asks (requests i) k → (c.pool i).Final ∨ c.pool i = fetch (requests i))
    (h' : Run (Live imaging) free c c') :
    c'.store.2 k = some r ∧ ∀ i out, Asks (requests i) k → plain (requests i).headers = true →
      c.pool i = fetch (requests i) → c'.pool i = .ret out →
        out = .ok r ∨ out = .ok errorResponse := by
  have hkept : c'.store.2 k = some r ∧ ∀ i, Asks (requests i) k →
      Settled (requests i) r (c.pool i) (c'.pool i) := by
    induction h' with
    | start =>
        refine ⟨hk, fun i hi => ?_⟩
        rcases hquiet i hi with hf | hp
        · exact Or.inl ⟨hf, rfl⟩
        · exact Or.inr (Or.inl hp)
    | step h₁ hs ih => exact settled_step (run_putsOwn (h.trans h₁) _) ih.1 ih.2 hs
  refine ⟨hkept.1, fun i out hi hplain hbegin hout => ?_⟩
  obtain ⟨ck, -, -, next, hfetch, -, -⟩ := hi.begins
  have hset := hkept.2 i hi
  rw [hout, hbegin, hfetch] at hset
  rcases hset with ⟨-, h⟩ | h | ⟨answered, h, hfound⟩
  · cases h
  · rw [hfetch] at h
    cases h
  · cases h
    exact (hfound hplain).imp (congrArg Except.ok) (congrArg Except.ok)

end Frozen

/-! ## 3. A picture that is replaced -/

/-- The calls when R2 holds `b`. -/
def live (imaging : Imaging) (b : Bucket) : Apply Op Answer (Bucket × CacheStore)
  | .get key, s => (.ok (b key), (b, s.2))
  | .cacheMatch k, s => (.ok (s.2 k.matched), (b, s.2))
  | .fetch sub, s => (imaging b sub, (b, s.2))
  | .put k r, s => if k.method = "GET" then (.ok (), (b, Function.update s.2 k.matched (some r)))
    else (.error ⟨"TypeError", "Cannot cache response to non-GET request."⟩, (b, s.2))

theorem live_apply (imaging : Imaging) (b : Bucket) (op : Op) (s : Bucket × CacheStore) :
    Live imaging op s (live imaging b op s).1 (live imaging b op s).2 := by
  obtain ⟨b₀, s⟩ := s
  cases op with
  | get key => exact .get key b₀ b s
  | cacheMatch k => exact .cacheMatch k b₀ b s _ (.whole _)
  | fetch sub => exact .fetch sub b₀ b s
  | put k r =>
      simp only [live]
      split
      · exact .put k r b₀ b s ‹_›
      · exact .failed _ _ b₀ b s

/-- An image service that shows what is there. -/
def showing : Imaging := fun b _ =>
  .ok ⟨200, Attrs.absent, some (.stream (((b "cat.png").map R2Object.body).getD [])),
    fun h => by cases h⟩

/-- A bucket with this picture. -/
def picture (n : UInt8) : Bucket := fun _ => some ⟨"", Attrs.absent, [n]⟩

def asksTwice (avif : Bool) : Request hostNames := (twoClients avif).toRequest

def oldPicture : Response :=
  outOf ⟨200, Attrs.absent, some (.stream [1]), fun h => by cases h⟩

theorem fetch_asksTwice (avif : Bool) :
    fetch (asksTwice avif) =
      imageCalls (asksTwice avif) (twoClients true).toRequest.parsed "cat.png" := by
  rw [fetch_route, asksTwice, route_twoClients]

/-- The first client has been shown the picture. -/
def shown : Worker Bool :=
  (begin asksTwice (picture 1)).sched (live showing (picture 1)) [true, true, true]

theorem shown_pool : shown.pool true = .ret (.ok oldPicture) ∧
    shown.pool false = fetch (asksTwice false) := by
  simp only [shown, begin, Config.init, Config.sched, fetch_asksTwice, imageCalls, live, showing,
    picture, Function.update_self]
  exact ⟨rfl, rfl⟩

/-- The client that asks after the picture was replaced is shown the old one. -/
theorem image_frozen_replaced :
    (shown.sched (live showing (picture 2)) [false]).store.1 "cat.png" = picture 2 "cat.png" ∧
      ∀ out, (shown.sched (live showing (picture 2)) [false]).pool false = .ret out →
        out = .ok oldPicture ∨ out = .ok errorResponse := by
  have hasks : ∀ avif, Asks (asksTwice avif)
      (cacheKeyOf (asksTwice true) (twoClients true).toRequest.parsed).matched :=
    fun avif => ⟨_, _, route_twoClients avif, rfl⟩
  have hrun : Run (Live showing) free (begin asksTwice (picture 1)) shown :=
    sched_run (live_apply showing (picture 1)) _ _
  have hstored : shown.store.2
      (cacheKeyOf (asksTwice true) (twoClients true).toRequest.parsed).matched = some oldPicture := by
    simp only [shown, begin, Config.init, Config.sched, fetch_asksTwice, imageCalls, live, showing,
      picture, Function.update_self]
    rfl
  refine ⟨?_, fun out hout => ?_⟩
  · simp only [Config.sched, shown_pool.2, fetch_asksTwice, imageCalls, live]
  · have hrun' := sched_run (live_apply showing (picture 2)) shown [false]
    refine (image_frozen hrun hstored (fun i _ => ?_) hrun').2 false out (hasks false) (by decide)
      shown_pool.2 hout
    cases i with
    | true => exact Or.inl ⟨_, shown_pool.1⟩
    | false => exact Or.inr shown_pool.2

end Cdn
