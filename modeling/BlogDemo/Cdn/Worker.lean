/-
  File:      BlogDemo/Cdn/Worker.lean
  Subject:   THE IMAGE WORKER (cloudflare-image-cdn-example/src): its `fetch` handler, the raw route
             that reads R2, and the image route that goes through the edge cache and the image service.

  The handler is a program of calls to R2, to the cache and to `fetch`, each of which may reject.
  A promise that is returned without `await` settles outside the `try` block (`Completion`).

  * `Route`, `route` -- what a request asks for, told from its method and its URL;
  * **`fetch_route`** -- what the handler does for each route.
-/
import BlogDemo.Lib.Attrs
import BlogDemo.Lib.Num
import BlogDemo.Lib.Prog
import BlogDemo.Lib.Url

namespace Cdn

open Js Atomic Uri Whatwg

/-! ## 1. Requests and responses -/

/-- Headers, by their names in lower case. -/
abbrev Headers := Attrs String

def Headers.set (headers : Headers) (name value : String) : Headers :=
  Function.update headers name (some value)

/-- A request that reached the worker: its URL is one. -/
structure Request (H : Authorities) where
  method : String
  url : String
  headers : Headers
  valid : (Whatwg.parse H url).isSome

inductive Body where
  | text (t : String)
  | stream (content : List UInt8)
  deriving DecidableEq

/-- A status that goes with no body. -/
def nullBody (status : Nat) : Bool := [101, 103, 204, 205, 304].contains status

structure Response where
  status : Nat
  headers : Headers
  body : Option Body
  sound : nullBody status = true → body = none

def Response.ok (r : Response) : Bool := 200 ≤ r.status && r.status ≤ 299

/-- `new Response(text, { status })` -/
def Response.ofText (text : String) (status : Nat) (h : nullBody status = false) : Response where
  status := status
  headers := Attrs.of [("content-type", "text/plain;charset=UTF-8")]
  body := some (.text text)
  sound := fun h' => absurd h' (by simp [h])

/-! ## 2. Calls -/

structure R2Object where
  httpEtag : String
  httpMetadata : Headers
  body : List UInt8

/-- The headers with those of the object's metadata. -/
def R2Object.writeHttpMetadata (obj : R2Object) (headers : Headers) : Headers :=
  fun name => (obj.httpMetadata name).or (headers name)

/-- `cf.image`; what is `undefined` is `none`. -/
structure Image where
  fit : String
  width : Option Nat
  height : Option Nat
  quality : Nat
  format : String
  deriving DecidableEq

/-- The request to the image service. -/
structure Subrequest where
  url : String
  method : String
  headers : Headers
  image : Image

/-- The request a response is cached under. -/
structure CacheKey where
  method : String
  url : String
  headers : Headers

inductive Op where
  | get (key : String)
  | cacheMatch (cacheKey : CacheKey)
  | fetch (sub : Subrequest)
  | put (cacheKey : CacheKey) (response : Response)

/-- What a call resolves to. -/
abbrev Op.Out : Op → Type
  | .get _ => Option R2Object
  | .cacheMatch _ => Option Response
  | .fetch _ => Response
  | .put _ _ => Unit

abbrev Answer (op : Op) := Except Error op.Out

abbrev Async (α : Type) := ExceptT Error (Prog Op Answer) α

/-- `await call` -/
def await (op : Op) : Async op.Out := ExceptT.mk (Prog.send op)

/-- `ctx.waitUntil(call)`: nothing comes of its answer. -/
def waitUntil (op : Op) : Async Unit := ExceptT.mk (.call op fun _ => .ret (.ok ()))

/-! ## 3. helpers.js -/

def parsePositiveInt : Option String → Option Nat
  | none => none
  | some v =>
    match parseInt v with
    | some n => if n > 0 then some n.toNat else none
    | none => none

def clampInt (n min max : Nat) : Nat := Nat.min max (Nat.max min n)

/-! ## 4. index.js -/

def RAW_PREFIX : String := "/raw/"

def IMG_PREFIX : String := "/img/"

def immutable : String := "public, max-age=31536000, immutable"

variable {H : Authorities}

/-- What is answered for the object under a key. -/
def rawResponse (request : Request H) : Option R2Object → Response
  | none => .ofText "Image not found" 404 rfl
  | some obj =>
    let etag := obj.httpEtag
    let ifNoneMatch := request.headers "if-none-match"
    if etag ≠ "" ∧ ifNoneMatch = some etag then
      ⟨304, Attrs.of [("etag", etag)], none, fun _ => rfl⟩
    else
      let headers := obj.writeHttpMetadata Attrs.absent
      let headers := if etag ≠ "" then headers.set "etag" etag else headers
      let headers := headers.set "cache-control" immutable
      let headers := if (headers "content-type").getD "" = "" then
        headers.set "content-type" "application/octet-stream" else headers
      ⟨200, headers, some (.stream obj.body), fun h => absurd h (by decide)⟩

def serveRawFromR2 (request : Request H) (key : String) : Async Response := do
  let obj ← await (.get key)
  return rawResponse request obj

/-- The URL of the raw image: `rawUrl.pathname = …; rawUrl.search = ''` -/
def toRawUrl (rawUrl : Url H) (key : String) : Url H :=
  (rawUrl.setPathname (RAW_PREFIX ++ encodeURIComponent key)).clearSearch

def acceptHeaders (request : Request H) : Headers :=
  match request.headers "accept" with
  | some accept => if accept ≠ "" then Headers.set Attrs.absent "accept" accept else Attrs.absent
  | none => Attrs.absent

/-- What is passed to `fetch`. -/
def subrequest (request : Request H) (url rawUrl : Url H) (key : String) : Subrequest where
  url := (toRawUrl rawUrl key).href
  method := request.method
  headers := acceptHeaders request
  image := {
    fit := "scale-down"
    width := parsePositiveInt (url.searchParam "w")
    height := parsePositiveInt (url.searchParam "h")
    quality := clampInt ((parsePositiveInt (url.searchParam "q")).getD 85) 1 100
    format := (url.searchParam "f").getD "auto" }

/-- The response with the worker's `Cache-Control`. -/
def outOf (resp : Response) : Response where
  status := resp.status
  headers := resp.headers.set "cache-control" immutable
  body := resp.body
  sound := resp.sound

def cacheKeyOf (request : Request H) (url : Url H) : CacheKey :=
  ⟨request.method, url.href, request.headers⟩

/-- The image route, with the key that was decoded. -/
def serveImage (request : Request H) (url : Url H) (key : String) : Async Response := do
  let cached ← await (.cacheMatch (cacheKeyOf request url))
  match cached with
  | some cached => return cached
  | none =>
    match Whatwg.parse H url.href with
    | none => throw ⟨"TypeError", "Invalid URL string."⟩
    | some rawUrl =>
      let resp ← await (.fetch (subrequest request url rawUrl key))
      if resp.ok = false then return resp
      else
        let out := outOf resp
        waitUntil (.put (cacheKeyOf request url) out)
        return out

/-- How the body of an `async` function ends: with a response, or with a promise that settles
    later. -/
inductive Completion where
  | response (r : Response)
  | promise (p : Prog Op Answer (Except Error Response))

/-- The `try` block. -/
def handle (request : Request H) : Async Completion :=
  match Whatwg.parse H request.url with
  | none => throw ⟨"TypeError", "Invalid URL string."⟩
  | some url =>
    if request.method ≠ "GET" ∧ request.method ≠ "HEAD" then
      return .response (.ofText "Method Not Allowed" 405 rfl)
    else if startsWith url.pathname RAW_PREFIX then do
      let key ← liftM (decodeURIComponent (slice url.pathname RAW_PREFIX))
      if key = "" then return .response (.ofText "Missing key" 400 rfl)
      else return .promise (serveRawFromR2 request key).run
    else if startsWith url.pathname IMG_PREFIX then do
      let key ← liftM (decodeURIComponent (slice url.pathname IMG_PREFIX))
      if key = "" then return .response (.ofText "Missing key" 400 rfl)
      else return .response (← serveImage request url key)
    else return .response (.ofText "Not Found" 404 rfl)

/-- What the `catch` block answers. -/
def errorResponse : Response := .ofText "Error processing request" 500 rfl

/-- `fetch(request, env, ctx)`; a returned promise is outside the `try` block. -/
def fetch (request : Request H) : Prog Op Answer (Except Error Response) := do
  match ← Prog.catching (handle request) fun _ => .response errorResponse with
  | .response r => .ret (.ok r)
  | .promise p => p

/-! ## 5. What the handler does, by route -/

/-- What a request asks for. -/
inductive Route (H : Authorities) where
  | notAllowed
  | malformed
  | missingKey
  | notFound
  | raw (key : String)
  | image (url : Url H) (key : String)

/-- The route of a key that is still encoded. -/
def routeKey (encoded : String) (route : String → Route H) : Route H :=
  match decodeURIComponent encoded with
  | .error _ => .malformed
  | .ok key => if key = "" then .missingKey else route key

def Request.parsed (request : Request H) : Url H :=
  (Whatwg.parse H request.url).get request.valid

theorem Request.parse_url (request : Request H) :
    Whatwg.parse H request.url = some request.parsed := by
  rw [Request.parsed, Option.some_get]

theorem Request.normal (request : Request H) : Normal request.parsed :=
  parse_normal request.parse_url

def route (request : Request H) : Route H :=
  let url := request.parsed
  if request.method ≠ "GET" ∧ request.method ≠ "HEAD" then .notAllowed
  else if startsWith url.pathname RAW_PREFIX then routeKey (slice url.pathname RAW_PREFIX) .raw
  else if startsWith url.pathname IMG_PREFIX then
    routeKey (slice url.pathname IMG_PREFIX) (.image url)
  else .notFound

/-- The calls of the image route. -/
def imageCalls (request : Request H) (url : Url H) (key : String) :
    Prog Op Answer (Except Error Response) :=
  .call (.cacheMatch (cacheKeyOf request url)) fun
    | .error _ => .ret (.ok errorResponse)
    | .ok (some cached) => .ret (.ok cached)
    | .ok none => .call (.fetch (subrequest request url url key)) fun
      | .error _ => .ret (.ok errorResponse)
      | .ok resp =>
        if resp.ok = false then .ret (.ok resp)
        else .call (.put (cacheKeyOf request url) (outOf resp)) fun _ => .ret (.ok (outOf resp))

/-- The image route inside the `try` block makes the calls of `imageCalls`. -/
theorem catching_serveImage (request : Request H) {url : Url H} (h : Normal url) (key : String) :
    (Prog.catching (do return Completion.response (← serveImage request url key))
      (fun _ => .response errorResponse) >>= fun c => match c with
        | .response r => .ret (.ok r)
        | .promise p => p) = imageCalls request url key := by
  unfold serveImage imageCalls
  rw [parse_href h]
  refine congrArg (Prog.call _) (funext fun r => ?_)
  match r with
  | .error e => rfl
  | .ok (some cached) => rfl
  | .ok none =>
      refine congrArg (Prog.call _) (funext fun r => ?_)
      match r with
      | .error e => rfl
      | .ok resp =>
          by_cases hok : resp.ok = false
          · simp only [Prog.bind, ExceptT.bindCont, hok, if_true]
            rfl
          · simp only [Prog.bind, ExceptT.bindCont, hok]
            rfl

/-- **What the handler does for each route.** -/
theorem fetch_route (request : Request H) : fetch request = match route request with
    | .notAllowed => .ret (.ok (.ofText "Method Not Allowed" 405 rfl))
    | .malformed => .ret (.ok errorResponse)
    | .missingKey => .ret (.ok (.ofText "Missing key" 400 rfl))
    | .notFound => .ret (.ok (.ofText "Not Found" 404 rfl))
    | .raw key => (serveRawFromR2 request key).run
    | .image url key => imageCalls request url key := by
  unfold fetch handle route routeKey
  rw [request.parse_url]
  dsimp only
  split
  · rfl
  · split
    · cases decodeURIComponent (slice request.parsed.pathname RAW_PREFIX) with
      | error e => rfl
      | ok key => by_cases hkey : key = "" <;> simp [hkey]
    · split
      · cases decodeURIComponent (slice request.parsed.pathname IMG_PREFIX) with
        | error e => rfl
        | ok key =>
            by_cases hkey : key = ""
            · simp [hkey]
            · simp only [Prog.catching_lift, hkey, if_false]
              exact catching_serveImage request request.normal key
      · rfl

end Cdn
