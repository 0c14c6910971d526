/-
  File:      BlogDemo/Cdn/Cache.lean
  Subject:   THE EDGE CACHE OF THE IMAGE WORKER. Any family of GET requests for images, interleaved
             call by call; the cache matches on method and URL, it may have forgotten a response, and
             a response may not have been stored.

  The image service answers a subrequest as `service` says; R2 does not change. The requests are taken
  to have no Range and no conditional headers, for which the cache would answer 206 or 304.

  * `Edge` -- what a call does to the cache;
  * `Transparent` -- in every run every response is the one without the cache;
  * **`transparent_iff`** -- this holds if and only if requests with the same URL have the same
    image (`SameImages`): the URL says nothing about the `Accept` header that the worker forwards.
-/
import BlogDemo.Cdn.Errors
import BlogDemo.Lib.Interleave

namespace Cdn

open Js Atomic Uri Whatwg

variable {H : Authorities}

/-- A GET request for an image. -/
structure ImageRequest (H : Authorities) extends Request H where
  isGet : method = "GET"
  isImage : startsWith toRequest.parsed.pathname IMG_PREFIX = true

/-- The image service. -/
abbrev Service := Subrequest → Except Error Response

/-- The cache: responses by method and URL. -/
abbrev CacheStore := String × String → Option Response

def CacheKey.matched (k : CacheKey) : String × String := (k.method, k.url)

/-- **What a call does**: a response that is stored may be found, a response may be stored. -/
inductive Edge (service : Service) : Effect Op Answer CacheStore where
  | hit (k : CacheKey) (s : CacheStore) : Edge service (.cacheMatch k) s (.ok (s k.matched)) s
  | miss (k : CacheKey) (s : CacheStore) : Edge service (.cacheMatch k) s (.ok none) s
  | fetch (sub : Subrequest) (s : CacheStore) : Edge service (.fetch sub) s (service sub) s
  | stored (k : CacheKey) (r : Response) (s : CacheStore) :
      Edge service (.put k r) s (.ok ()) (Function.update s k.matched (some r))
  | lost (k : CacheKey) (r : Response) (x : Answer (.put k r)) (s : CacheStore) :
      Edge service (.put k r) s x s
  | get (key : String) (x : Answer (.get key)) (s : CacheStore) : Edge service (.get key) s x s

/-- The calls without the cache. -/
def withoutCache (service : Service) : Backend
  | .get _ => .ok none
  | .cacheMatch _ => .ok none
  | .fetch sub => service sub
  | .put _ _ => .ok ()

/-- What the handler answers without the cache. -/
def uncached (service : Service) (request : Request H) : Except Error Response :=
  (settle (withoutCache service) (fetch request)).2

section Machine

variable {ι : Type}

/-- The requests before their first call, over the empty cache. -/
def start (requests : ι → ImageRequest H) :
    Config ι Op Answer (Except Error Response) CacheStore :=
  Config.init (fun _ => none) fun i => fetch (requests i).toRequest

/-- **The cache is transparent**: in every run, what a request is answered is what it would be
    answered without the cache. -/
def Transparent [DecidableEq ι] (service : Service) (requests : ι → ImageRequest H) : Prop :=
  ∀ c, Run (Edge service) free (start requests) c →
    ∀ i out, c.pool i = .ret out → out = uncached service (requests i).toRequest

/-- Two responses that are the same up to `Cache-Control`. -/
structure SameImage (r r' : Response) : Prop where
  status : r.status = r'.status
  body : r.body = r'.body
  headers : ∀ name, name ≠ "cache-control" → r.headers name = r'.headers name

/-- **Requests with the same URL have the same image**: if the service answers the subrequest of one
    with an image, it answers that of the other with the same. -/
def SameImages (service : Service) (requests : ι → ImageRequest H) : Prop :=
  ∀ i j url key, route (requests i).toRequest = .image url key →
    route (requests j).toRequest = .image url key →
    ∀ r, service (subrequest (requests i).toRequest url url key) = .ok r → r.ok = true →
      ∃ r', service (subrequest (requests j).toRequest url url key) = .ok r' ∧ SameImage r r'

/-! ## 1. One request without the cache -/

theorem image_of_route {request : Request H} {url : Url H} {key : String}
    (h : route request = .image url key) :
    url = request.parsed ∧ decodeURIComponent (slice url.pathname IMG_PREFIX) = .ok key := by
  have hkey : ∀ {encoded : String} {f : String → Route H}, routeKey encoded f = .image url key →
      (∃ k, decodeURIComponent encoded = .ok k ∧ f k = .image url key) := by
    intro encoded f hf
    unfold routeKey at hf
    split at hf
    · cases hf
    · rename_i k hk
      split at hf
      · cases hf
      · exact ⟨k, hk, hf⟩
  unfold route at h
  dsimp only at h
  split at h
  · cases h
  · split at h
    · obtain ⟨k, _, hk⟩ := hkey h
      cases hk
    · split at h
      · obtain ⟨k, hdecode, hk⟩ := hkey h
        cases hk
        exact ⟨rfl, hdecode⟩
      · cases h

/-- Requests whose image is cached under the same URL ask for the same image. -/
theorem image_unique {request request' : Request H} {url url' : Url H} {key key' : String}
    (h : route request = .image url key) (h' : route request' = .image url' key')
    (hurl : url.href = url'.href) : url' = url ∧ key' = key := by
  obtain ⟨hparsed, hkey⟩ := image_of_route h
  obtain ⟨hparsed', hkey'⟩ := image_of_route h'
  have hparse : Whatwg.parse H url.href = some url := parse_href (hparsed ▸ request.normal)
  have hparse' : Whatwg.parse H url'.href = some url' := parse_href (hparsed' ▸ request'.normal)
  have hsame : url' = url := by
    rw [hurl, hparse'] at hparse
    exact Option.some.inj hparse
  subst hsame
  rw [hkey] at hkey'
  cases hkey'
  exact ⟨rfl, rfl⟩

theorem uncached_image {request : Request H} {url : Url H} {key : String}
    (h : route request = .image url key) (service : Service) :
    uncached service request = match service (subrequest request url url key) with
      | .error _ => .ok errorResponse
      | .ok resp => if resp.ok = false then .ok resp else .ok (outOf resp) := by
  have hfetch : fetch request = imageCalls request url key := by
    rw [fetch_route, h]
  have hmatch : withoutCache service (.cacheMatch (cacheKeyOf request url)) = .ok none := rfl
  cases hservice : service (subrequest request url url key) with
  | error e =>
      have hfetched : withoutCache service (.fetch (subrequest request url url key)) = .error e :=
        hservice
      simp only [uncached, hfetch, imageCalls, settle_call, settle_ret, hmatch, hfetched]
  | ok resp =>
      have hfetched : withoutCache service (.fetch (subrequest request url url key)) = .ok resp :=
        hservice
      simp only [uncached, hfetch, imageCalls, settle_call, hmatch, hfetched]
      split <;> rfl

/-! ## 2. What the cache holds -/

/-- A stored response is one the service answered, for a request with that URL. -/
def Stored (service : Service) (requests : ι → ImageRequest H) (k : String × String)
    (r : Response) : Prop :=
  ∃ i url key resp, route (requests i).toRequest = .image url key ∧ k.2 = url.href ∧
    service (subrequest (requests i).toRequest url url key) = .ok resp ∧ resp.ok = true ∧
    r = outOf resp

/-- The cache holds stored responses. -/
def Sound (service : Service) (requests : ι → ImageRequest H) (s : CacheStore) : Prop :=
  ∀ k r, s k = some r → Stored service requests k r

/-- What a request stores. -/
inductive Issued (service : Service) (requests : ι → ImageRequest H) : Op → Prop where
  | get (key : String) : Issued service requests (.get key)
  | cacheMatch (k : CacheKey) : Issued service requests (.cacheMatch k)
  | fetch (sub : Subrequest) : Issued service requests (.fetch sub)
  | put (k : CacheKey) (r : Response) (h : Stored service requests k.matched r) :
      Issued service requests (.put k r)

/-- What a request is answered. -/
inductive Assumed (service : Service) (requests : ι → ImageRequest H) :
    (op : Op) → Answer op → Prop where
  | get (key : String) (x : Answer (.get key)) : Assumed service requests (.get key) x
  | missing (k : CacheKey) : Assumed service requests (.cacheMatch k) (.ok none)
  | found (k : CacheKey) (r : Response) (h : Stored service requests k.matched r) :
      Assumed service requests (.cacheMatch k) (.ok (some r))
  | fetch (sub : Subrequest) : Assumed service requests (.fetch sub) (service sub)
  | put (k : CacheKey) (r : Response) (x : Answer (.put k r)) :
      Assumed service requests (.put k r) x

variable {service : Service} {requests : ι → ImageRequest H}

/-- **One call**: it is answered as assumed, and the cache holds stored responses after it. -/
theorem edge_step {op : Op} {s s' : CacheStore} {x : Answer op}
    (hs : Sound service requests s) (hop : Issued service requests op)
    (he : Edge service op s x s') : Assumed service requests op x ∧ Sound service requests s' := by
  cases he with
  | hit k =>
      refine ⟨?_, hs⟩
      cases hk : s k.matched with
      | none => exact .missing k
      | some r => exact .found k r (hs _ r hk)
  | miss k => exact ⟨.missing k, hs⟩
  | fetch sub => exact ⟨.fetch sub, hs⟩
  | stored k r =>
      refine ⟨.put k r _, fun k' r' hr' => ?_⟩
      by_cases hk : k' = k.matched
      · subst hk
        rw [Function.update_self] at hr'
        cases hr'
        cases hop with
        | put _ _ h => exact h
      · rw [Function.update_of_ne hk] at hr'
        exact hs k' r' hr'
  | lost k r => exact ⟨.put k r _, hs⟩
  | get key => exact ⟨.get key _, hs⟩

theorem outOf_eq {r r' : Response} (h : SameImage r r') : outOf r = outOf r' := by
  have hheaders : r.headers.set "cache-control" immutable =
      r'.headers.set "cache-control" immutable := by
    funext name
    by_cases hname : name = "cache-control"
    · subst hname
      rw [Headers.set, Headers.set, Function.update_self, Function.update_self]
    · rw [Headers.set, Headers.set, Function.update_of_ne hname, Function.update_of_ne hname,
        h.headers name hname]
  simp only [outOf, h.status, h.body, hheaders]

theorem sameImage_of_outOf {r r' : Response} (h : outOf r = outOf r') : SameImage r r' where
  status := show (outOf r).status = (outOf r').status from congrArg Response.status h
  body := show (outOf r).body = (outOf r').body from congrArg Response.body h
  headers name hname := by
    have hheaders := congrFun (congrArg Response.headers h) name
    simpa [outOf, Headers.set, Function.update_of_ne hname] using hheaders

/-! ## 3. Requests with the same image -/

theorem ok_of_status {r r' : Response} (h : r.status = r'.status) (hok : r.ok = true) :
    r'.ok = true := by
  rw [Response.ok, ← h]
  exact hok

theorem not_raw (request : ImageRequest H) (key : String) :
    route request.toRequest ≠ .raw key := by
  intro h
  have hraw : startsWith request.parsed.pathname RAW_PREFIX = false := by
    rw [startsWith, eq_append_slice request.isImage]
    rfl
  unfold route routeKey at h
  simp only [request.isGet, hraw, request.isImage, Bool.false_eq_true, if_false] at h
  repeat' split at h
  all_goals cases h

theorem uncached_ret {request : Request H} {out : Except Error Response}
    (h : fetch request = .ret out) (service : Service) : uncached service request = out := by
  rw [uncached, h, settle_ret]

/-- **A request is answered as without the cache** when it is answered as assumed. -/
theorem fetch_meets (hsame : SameImages service requests) (i : ι) :
    (fetch (requests i).toRequest).Meets (Issued service requests) (Assumed service requests)
      (· = uncached service (requests i).toRequest) := by
  have hfetch := fetch_route (requests i).toRequest
  cases hroute : route (requests i).toRequest with
  | image url key =>
      have huncached := uncached_image hroute service
      simp only [hroute] at hfetch
      rw [hfetch, imageCalls]
      refine ⟨.cacheMatch _, fun r hr => ?_⟩
      cases hr with
      | found _ r hstored =>
          -- a response stored for another request with this URL
          obtain ⟨j, url', key', resp, hroute', hurl, hservice, hok, rfl⟩ := hstored
          obtain ⟨rfl, rfl⟩ := image_unique hroute hroute' hurl
          obtain ⟨r', hservice', himage⟩ := hsame j i _ _ hroute' hroute resp hservice hok
          have hok' : ¬ r'.ok = false := by simp [ok_of_status himage.status hok]
          rw [hservice'] at huncached
          simp only [if_neg hok'] at huncached
          rw [Prog.meets_ret, huncached, outOf_eq himage]
      | missing =>
          refine ⟨.fetch _, fun r hr => ?_⟩
          cases hr with
          | fetch =>
              cases hservice : service (subrequest (requests i).toRequest url url key) with
              | error e =>
                  rw [hservice] at huncached
                  rw [Prog.meets_ret, huncached]
              | ok resp =>
                  rw [hservice] at huncached
                  dsimp only at huncached ⊢
                  split
                  · rename_i hok
                    rw [Prog.meets_ret, huncached, if_pos hok]
                  · rename_i hok
                    refine ⟨.put _ _ ⟨i, url, key, resp, hroute, rfl, hservice, by simpa using hok,
                      rfl⟩, fun _ _ => ?_⟩
                    rw [Prog.meets_ret, huncached, if_neg hok]
  | notAllowed =>
      rw [hroute] at hfetch
      rw [hfetch, Prog.meets_ret, uncached_ret hfetch]
  | malformed =>
      rw [hroute] at hfetch
      rw [hfetch, Prog.meets_ret, uncached_ret hfetch]
  | missingKey =>
      rw [hroute] at hfetch
      rw [hfetch, Prog.meets_ret, uncached_ret hfetch]
  | notFound =>
      rw [hroute] at hfetch
      rw [hfetch, Prog.meets_ret, uncached_ret hfetch]
  | raw key => exact absurd hroute (not_raw (requests i) key)

section Runs

variable [DecidableEq ι]

theorem transparent_of_same (h : SameImages service requests) : Transparent service requests := by
  intro c hrun i out hout
  have hempty : Sound service requests (start requests).store := fun k r hr => by cases hr
  have hedge : ∀ op s x s', Sound service requests s → Issued service requests op →
      Edge service op s x s' → Assumed service requests op x ∧ Sound service requests s' :=
    fun op s x s' => edge_step
  have hi := (run_meets hedge hrun ⟨hempty, fetch_meets h⟩).2 i
  rw [hout] at hi
  exact hi

/-- The calls answered in full: what is stored is found. -/
def edge (service : Service) : Apply Op Answer CacheStore
  | .get _, s => (.ok none, s)
  | .cacheMatch k, s => (.ok (s k.matched), s)
  | .fetch sub, s => (service sub, s)
  | .put k r, s => (.ok (), Function.update s k.matched (some r))

theorem edge_apply (op : Op) (s : CacheStore) :
    Edge service op s (edge service op s).1 (edge service op s).2 := by
  cases op with
  | get key => exact .get key _ s
  | cacheMatch k => exact .hit k s
  | fetch sub => exact .fetch sub s
  | put k r => exact .stored k r s

/-- **A request that is answered from the cache** is answered with what another one stored. -/
theorem answered_from_cache {i j : ι} (hij : i ≠ j) {url : Url H} {key : String}
    (hi : route (requests i).toRequest = .image url key)
    (hj : route (requests j).toRequest = .image url key) {r : Response}
    (hservice : service (subrequest (requests i).toRequest url url key) = .ok r)
    (hok : r.ok = true) :
    ((start requests).sched (edge service) [i, i, i, j]).pool j = .ret (.ok (outOf r)) := by
  have hfetch : fetch (requests i).toRequest = imageCalls (requests i).toRequest url key := by
    rw [fetch_route, hi]
  have hfetch' : fetch (requests j).toRequest = imageCalls (requests j).toRequest url key := by
    rw [fetch_route, hj]
  have hok' : ¬ r.ok = false := by simp [hok]
  have hkey : (cacheKeyOf (requests j).toRequest url).matched =
      (cacheKeyOf (requests i).toRequest url).matched := by
    simp [cacheKeyOf, CacheKey.matched, (requests i).isGet, (requests j).isGet]
  simp only [Config.sched, start, Config.init, hfetch, hfetch', imageCalls, edge,
    Function.update_self, Function.update_of_ne (Ne.symm hij), hservice, if_neg hok', hkey]

theorem same_of_transparent (h : Transparent service requests) : SameImages service requests := by
  intro i j url key hi hj r hservice hok
  by_cases hij : i = j
  · subst hij
    exact ⟨r, hservice, rfl, rfl, fun _ _ => rfl⟩
  · have hrun := sched_run (@edge_apply service) (start requests) [i, i, i, j]
    have hcached := h _ hrun j _ (answered_from_cache hij hi hj hservice hok)
    rw [uncached_image hj] at hcached
    have hstatus : (outOf r).ok = true := hok
    split at hcached
    · -- the service rejected: the worker's own 500 is no image
      rw [Except.ok.inj hcached] at hstatus
      cases hstatus
    · rename_i r' hservice'
      split at hcached
      · rename_i hok'
        rw [Except.ok.inj hcached, hok'] at hstatus
        cases hstatus
      · exact ⟨r', hservice', sameImage_of_outOf (Except.ok.inj hcached)⟩

/-- **The cache is transparent if and only if** requests with the same URL have the same image. -/
theorem transparent_iff (service : Service) (requests : ι → ImageRequest H) :
    Transparent service requests ↔ SameImages service requests :=
  ⟨same_of_transparent, transparent_of_same⟩

end Runs

end Machine

/-! ## 4. Two clients -/

/-- The same URL, from a client that takes AVIF and from one that does not say. -/
def twoClients (avif : Bool) : ImageRequest hostNames where
  method := "GET"
  url := "https://cdn.example/img/cat.png"
  headers := if avif then Attrs.of [("accept", "image/avif")] else Attrs.absent
  valid := by decide +kernel
  isGet := rfl
  isImage := by cases avif <;> decide +kernel

/-- An image service that converts to what the client takes. -/
def converting : Service := fun sub =>
  .ok ⟨200, Attrs.absent, some (.stream (if (sub.headers "accept").isSome then [1] else [0])),
    fun h => by cases h⟩

theorem route_twoClients (avif : Bool) :
    route (twoClients avif).toRequest = .image (twoClients true).toRequest.parsed "cat.png" := by
  have hkey : decodeURIComponent (slice (twoClients avif).parsed.pathname IMG_PREFIX) =
      .ok "cat.png" := by
    cases avif <;> decide +kernel
  exact route_image (Or.inl rfl) (twoClients avif).isImage hkey (by decide)

/-- **The cache is not transparent**: the client that does not say is answered with AVIF. -/
theorem twoClients_not_transparent : ¬ Transparent converting twoClients := by
  intro h
  obtain ⟨r', hr', himage⟩ := same_of_transparent h true false _ _ (route_twoClients true)
    (route_twoClients false) _ rfl rfl
  cases hr'
  have hbody := himage.body
  revert hbody
  decide


end Cdn
