/-
  File:      BlogDemo/Cdn/Errors.lean
  Subject:   WHERE A FAILURE OF THE IMAGE WORKER SURFACES. Every call of the handler resolves or
             rejects as a backend decides; what it answers itself with 500 is told from the calls.

  * `Contained` -- the handler answers, and with a 500 of its own exactly when a backend call
    rejected;
  * **`contained_iff`** -- this holds if and only if the path can be decoded and R2 does not reject
    the read of the raw route, whose promise is returned without `await`.
-/
import BlogDemo.Cdn.Keys

namespace Cdn

open Js Atomic Whatwg

variable {H : Authorities}

/-- How each call of a request ends. -/
abbrev Backend := (op : Op) → Answer op

/-- The calls of a request and what comes of it. -/
def settle (b : Backend) (p : Prog Op Answer (Except Error Response)) :
    List (Made Op Answer) × Except Error Response :=
  ((p.run (fun op s => (b op, s)) ()).1, (p.run (fun op s => (b op, s)) ()).2.1)

abbrev madeGet (key : String) (x : Except Error (Option R2Object)) : Made Op Answer := ⟨.get key, x⟩

abbrev madeMatch (cacheKey : CacheKey) (x : Except Error (Option Response)) : Made Op Answer :=
  ⟨.cacheMatch cacheKey, x⟩

abbrev madeFetch (sub : Subrequest) (x : Except Error Response) : Made Op Answer := ⟨.fetch sub, x⟩

/-- A call of a backend that rejected. -/
inductive Rejected : Made Op Answer → Prop where
  | get (key : String) (e : Error) : Rejected (madeGet key (.error e))
  | cacheMatch (cacheKey : CacheKey) (e : Error) : Rejected (madeMatch cacheKey (.error e))
  | fetch (sub : Subrequest) (e : Error) : Rejected (madeFetch sub (.error e))

/-- A call that was answered with this response. -/
inductive Answered : Made Op Answer → Response → Prop where
  | cacheMatch (cacheKey : CacheKey) (r : Response) : Answered (madeMatch cacheKey (.ok (some r))) r
  | fetch (sub : Subrequest) (r : Response) : Answered (madeFetch sub (.ok r)) r

/-- A 500 that no backend answered. -/
def OwnError (calls : List (Made Op Answer)) (r : Response) : Prop :=
  r.status = 500 ∧ ∀ c ∈ calls, ¬ Answered c r

/-- **Errors are contained**: the handler answers, and with a 500 of its own exactly when a backend
    call rejected. -/
def Contained (request : Request H) (b : Backend) : Prop :=
  ∃ r, (settle b (fetch request)).2 = .ok r ∧
    (OwnError (settle b (fetch request)).1 r ↔ ∃ c ∈ (settle b (fetch request)).1, Rejected c)

/-! ## 1. One call after the other -/

variable {b : Backend}

theorem settle_ret (r : Except Error Response) : settle b (.ret r) = ([], r) := rfl

theorem settle_call {op : Op} {next : Answer op → Prog Op Answer (Except Error Response)} :
    settle b (.call op next) = (⟨op, b op⟩ :: (settle b (next (b op))).1,
      (settle b (next (b op))).2) := rfl

/-- A response without a call that rejected is contained if it is no 500 or was answered. -/
theorem contained_ok {request : Request H} {calls : List (Made Op Answer)} {r : Response}
    (h : settle b (fetch request) = (calls, .ok r)) (hok : ∀ c ∈ calls, ¬ Rejected c)
    (hr : r.status ≠ 500 ∨ ∃ c ∈ calls, Answered c r) : Contained request b := by
  refine ⟨r, by rw [h], ?_⟩
  rw [h]
  constructor
  · intro h'
    obtain ⟨h500, hanswered⟩ := h'
    rcases hr with hr | ⟨c, hc, hc'⟩
    · exact absurd h500 hr
    · exact absurd hc' (hanswered c hc)
  · intro h'
    obtain ⟨c, hc, hrejected⟩ := h'
    exact absurd hrejected (hok c hc)

/-- The worker's own 500 is contained if a call rejected and none was answered with a response. -/
theorem contained_error {request : Request H} {calls : List (Made Op Answer)}
    (h : settle b (fetch request) = (calls, .ok errorResponse))
    (hrejected : ∃ c ∈ calls, Rejected c) (hnone : ∀ c ∈ calls, ∀ r, ¬ Answered c r) :
    Contained request b := by
  refine ⟨errorResponse, by rw [h], ?_⟩
  rw [h]
  exact ⟨fun _ => hrejected, fun _ => ⟨rfl, fun c hc => hnone c hc _⟩⟩

/-! ## 2. The routes -/

theorem rawResponse_status (request : Request H) (o : Option R2Object) :
    (rawResponse request o).status ≠ 500 := by
  unfold rawResponse
  split
  · exact fun h => by cases h
  · dsimp only
    split
    · exact fun h => by cases h
    · exact fun h => by cases h

theorem outOf_status {resp : Response} (h : resp.ok ≠ false) : (outOf resp).status ≠ 500 := by
  intro h500
  refine h ?_
  have hstatus : resp.status = 500 := h500
  simp [Response.ok, hstatus]

theorem not_rejected_match {k : CacheKey} {o : Option Response} :
    ¬ Rejected (madeMatch k (.ok o)) := fun h => by cases h

theorem not_rejected_fetch {sub : Subrequest} {r : Response} :
    ¬ Rejected (madeFetch sub (.ok r)) := fun h => by cases h

theorem not_rejected_put {k : CacheKey} {r : Response} {x : Answer (.put k r)} :
    ¬ Rejected ⟨.put k r, x⟩ := fun h => by cases h

/-- The image route contains every failure. -/
theorem image_contained {request : Request H} {url : Url H} {key : String}
    (h : route request = .image url key) (b : Backend) : Contained request b := by
  have hfetch : fetch request = imageCalls request url key := by
    rw [fetch_route, h]
  cases hmatch : b (.cacheMatch (cacheKeyOf request url)) with
  | error e =>
      have hsettle : settle b (fetch request) =
          ([madeMatch (cacheKeyOf request url) (.error e)], .ok errorResponse) := by
        simp only [hfetch, imageCalls, settle_call, settle_ret, hmatch]
      exact contained_error hsettle ⟨_, List.mem_singleton_self _, .cacheMatch _ e⟩
        (List.forall_mem_singleton.mpr fun r h => by cases h)
  | ok cached =>
      cases cached with
      | some cached =>
          have hsettle : settle b (fetch request) =
              ([madeMatch (cacheKeyOf request url) (.ok (some cached))], .ok cached) := by
            simp only [hfetch, imageCalls, settle_call, settle_ret, hmatch]
          exact contained_ok hsettle (List.forall_mem_singleton.mpr not_rejected_match)
            (Or.inr ⟨_, List.mem_singleton_self _, .cacheMatch _ cached⟩)
      | none =>
          cases hfetched : b (.fetch (subrequest request url url key)) with
          | error e =>
              have hsettle : settle b (fetch request) =
                  ([madeMatch (cacheKeyOf request url) (.ok none),
                    madeFetch (subrequest request url url key) (.error e)], .ok errorResponse) := by
                simp only [hfetch, imageCalls, settle_call, settle_ret, hmatch, hfetched]
              refine contained_error hsettle ⟨_, List.mem_of_getLast? rfl, .fetch _ e⟩ ?_
              exact List.forall_mem_cons.mpr ⟨fun r h => (by cases h),
                List.forall_mem_singleton.mpr fun r h => by cases h⟩
          | ok resp =>
              by_cases hok : resp.ok = false
              · have hsettle : settle b (fetch request) =
                    ([madeMatch (cacheKeyOf request url) (.ok none),
                      madeFetch (subrequest request url url key) (.ok resp)], .ok resp) := by
                  simp only [hfetch, imageCalls, settle_call, settle_ret, hmatch, hfetched, hok,
                    if_true]
                refine contained_ok hsettle ?_ (Or.inr ⟨_, List.mem_of_getLast? rfl, .fetch _ resp⟩)
                exact List.forall_mem_cons.mpr ⟨not_rejected_match,
                  List.forall_mem_singleton.mpr not_rejected_fetch⟩
              · have hsettle : settle b (fetch request) =
                    ([madeMatch (cacheKeyOf request url) (.ok none),
                      madeFetch (subrequest request url url key) (.ok resp),
                      ⟨.put (cacheKeyOf request url) (outOf resp), b _⟩], .ok (outOf resp)) := by
                  simp only [hfetch, imageCalls, settle_call, hmatch, hfetched, hok]
                  rfl
                refine contained_ok hsettle ?_ (Or.inl (outOf_status hok))
                exact List.forall_mem_cons.mpr ⟨not_rejected_match,
                  List.forall_mem_cons.mpr ⟨not_rejected_fetch,
                    List.forall_mem_singleton.mpr not_rejected_put⟩⟩

theorem serveRaw_calls (request : Request H) (key : String) :
    (serveRawFromR2 request key).run = .call (.get key) fun
      | .error e => .ret (.error e)
      | .ok o => .ret (.ok (rawResponse request o)) := by
  refine congrArg (Prog.call _) (funext fun r => ?_)
  cases r <;> rfl

/-- A route without calls whose answer is no 500. -/
theorem still_contained {request : Request H} {r : Response} (h : fetch request = .ret (.ok r))
    (hr : r.status ≠ 500) (b : Backend) : Contained request b :=
  contained_ok (by rw [h, settle_ret]) (by simp) (Or.inl hr)

/-- The raw route contains every failure but a rejected read. -/
theorem raw_contained {request : Request H} {key : String} (h : route request = .raw key)
    (b : Backend) : Contained request b ↔ ∃ o, b (.get key) = .ok o := by
  have hfetch : fetch request = (serveRawFromR2 request key).run := by
    rw [fetch_route, h]
  cases hget : b (.get key) with
  | error e =>
      have hsettle : settle b (fetch request) = ([madeGet key (.error e)], .error e) := by
        rw [hfetch, serveRaw_calls]
        simp only [settle_call, settle_ret, hget]
      constructor
      · intro h'
        obtain ⟨r, hr, _⟩ := h'
        rw [hsettle] at hr
        cases hr
      · intro h'
        obtain ⟨o, ho⟩ := h'
        cases ho
  | ok o =>
      have hsettle : settle b (fetch request) =
          ([madeGet key (.ok o)], .ok (rawResponse request o)) := by
        rw [hfetch, serveRaw_calls]
        simp only [settle_call, settle_ret, hget]
      refine ⟨fun _ => ⟨o, rfl⟩, fun _ => contained_ok hsettle ?_ (Or.inl (rawResponse_status _ _))⟩
      exact List.forall_mem_singleton.mpr fun h => by cases h

/-- A path that cannot be decoded is answered with a 500 without any call. -/
theorem malformed_uncontained {request : Request H} (h : route request = .malformed) (b : Backend) :
    ¬ Contained request b := by
  have hsettle : settle b (fetch request) = ([], .ok errorResponse) := by
    rw [fetch_route, h]
    rfl
  intro h'
  obtain ⟨r, hr, hiff⟩ := h'
  rw [hsettle] at hr hiff
  cases hr
  obtain ⟨c, hc, _⟩ := hiff.mp ⟨rfl, nofun⟩
  cases hc

/-- **Errors are contained if and only if** the path of the request can be decoded and, on the raw
    route, R2 does not reject the read. -/
theorem contained_iff (request : Request H) (b : Backend) :
    Contained request b ↔
      route request ≠ .malformed ∧ ∀ key, route request = .raw key → ∃ o, b (.get key) = .ok o := by
  cases h : route request with
  | raw key =>
      rw [raw_contained h]
      exact ⟨fun ho => ⟨nofun, fun _ hkey => by cases hkey; exact ho⟩, fun ho => ho.2 key rfl⟩
  | image url key => exact ⟨fun _ => ⟨nofun, nofun⟩, fun _ => image_contained h b⟩
  | malformed => exact ⟨fun hc => absurd hc (malformed_uncontained h b), fun ho => absurd rfl ho.1⟩
  | notAllowed =>
      exact ⟨fun _ => ⟨nofun, nofun⟩,
        fun _ => still_contained (by rw [fetch_route, h]) (by decide) b⟩
  | missingKey =>
      exact ⟨fun _ => ⟨nofun, nofun⟩,
        fun _ => still_contained (by rw [fetch_route, h]) (by decide) b⟩
  | notFound =>
      exact ⟨fun _ => ⟨nofun, nofun⟩,
        fun _ => still_contained (by rw [fetch_route, h]) (by decide) b⟩

/-! ## 3. Where it fails -/

/-- A path with an escape that is cut off. -/
def malformedRequest : Request hostNames where
  method := "GET"
  url := "https://cdn.example/img/100%"
  headers := Attrs.absent
  valid := by decide +kernel

def rawRequest : Request hostNames where
  method := "GET"
  url := "https://cdn.example/raw/cat.png"
  headers := Attrs.absent
  valid := by decide +kernel

theorem nullBody_notFound : nullBody 404 = false := rfl

/-- Nothing is stored, cached or found. -/
def emptyBackend : Backend
  | .get _ => .ok none
  | .cacheMatch _ => .ok none
  | .fetch _ => .ok (.ofText "Image not found" 404 nullBody_notFound)
  | .put _ _ => .ok ()

def downBackend : Backend := fun _ => .error ⟨"Error", "get: internal error"⟩

theorem route_malformed : route malformedRequest = .malformed := by
  have hdecode : (match route malformedRequest with | .malformed => true | _ => false) = true := by
    decide +kernel
  split at hdecode
  · assumption
  · cases hdecode

theorem route_rawRequest : route rawRequest = .raw "cat.png" := by
  have hdecode : (match route rawRequest with
      | .raw key => key == "cat.png"
      | _ => false) = true := by
    decide +kernel
  split at hdecode
  · rename_i key hroute
    rw [hroute, beq_iff_eq.mp hdecode]
  · cases hdecode

/-- **Errors are not contained**: a path that cannot be decoded makes the worker answer 500 though
    no backend rejected, and a read of R2 that rejects makes the handler reject. -/
theorem not_contained :
    ¬ Contained malformedRequest emptyBackend ∧ ¬ Contained rawRequest downBackend := by
  refine ⟨malformed_uncontained route_malformed _, fun h => ?_⟩
  obtain ⟨o, ho⟩ := (raw_contained route_rawRequest _).mp h
  cases ho

end Cdn
