/-
  File:      BlogDemo/Frontend/App.lean
  Subject:   THE FRONTEND OF THE LAMBDA EXAMPLE (frontend/src/App.tsx): `fetchWithAuth`, the login, the
             logout, the refresh when the page is loaded, and the calls that write posts.

  A flow shares two variables with the others, the module's `accessToken` and the context's `user`.
  It gives up control at `fetch` and at `response.json()`; what these reject with is thrown, and a
  flow that throws ends.

  * `Kind.code` -- the flow of each kind;
  * `contract` -- what each block of a flow may write, and the requests it sends;
    **`code_obeys`** -- every flow obeys it.
-/
import BlogDemo.Lambda.Gateway
import BlogDemo.Lib.EventLoop

namespace Frontend

open Js Atomic EventLoop Gateway

/-! ## 1. Variables and awaits -/

structure Vars where
  accessToken : Option Json
  user : Option Json
  deriving DecidableEq

/-- `''` -/
def empty : Option Json := some (.str "")

/-- The variables of a page that was just loaded. -/
def Vars.start : Vars := ⟨empty, empty⟩

inductive Access where
  | accessToken
  | setAccessToken (value : Option Json)
  | setUser (value : Option Json)

abbrev Access.Out : Access → Type
  | .accessToken => Option Json
  | .setAccessToken _ => Unit
  | .setUser _ => Unit

def access : Apply Access Access.Out Vars
  | .accessToken, v => (v.accessToken, v)
  | .setAccessToken value, v => ((), { v with accessToken := value })
  | .setUser value, v => ((), { v with user := value })

inductive Wait where
  | fetch (req : HttpRequest)
  | json (res : HttpResponse)

abbrev Wait.Out : Wait → Type
  | .fetch _ => Except Error HttpResponse
  | .json _ => Except Error Json

/-- A flow, as it is run: its result is dropped, and so is what it throws. -/
abbrev Flow := Code Access.Out Wait.Out

abbrev Async (α : Type) := ExceptT Error Flow α

def now (a : Access) : Async a.Out := ExceptT.mk (.call (.now a) fun x => .ret (.ok x))

/-- `await fetch(…)` -/
def fetch (req : HttpRequest) : Async HttpResponse := ExceptT.mk (.call (.await (.fetch req)) .ret)

/-- `await res.json()` -/
def json (res : HttpResponse) : Async Json := ExceptT.mk (.call (.await (.json res)) .ret)

/-- `value[key]`, of a value that may be `null`. -/
def property (value : Json) (key : String) : Except Error (Option Json) :=
  match value with
  | .null => .error ⟨"TypeError", s!"Cannot read properties of null (reading '{key}')"⟩
  | value => .ok (value.get? key)

/-! ## 2. Requests -/

/-- White space that is removed from the ends of a header's value. -/
def httpSpace (c : Char) : Bool := c == ' ' || c == '\t' || c == '\n' || c == '\r'

def headerValue (text : String) : String :=
  String.ofList ((text.toList.dropWhile httpSpace).reverse.dropWhile httpSpace).reverse

/-- `Bearer ${accessToken}` -/
def bearerOf (accessToken : Option Json) : String := headerValue ("Bearer " ++ string accessToken)

/-- `init.headers['Authorization'] = …` -/
def authorized (init : HttpRequest) (accessToken : Option Json) : HttpRequest :=
  { init with headers := Function.update init.headers "authorization" (some (bearerOf accessToken)) }

def jsonHeaders : Attrs String := Attrs.of [("content-type", "application/json")]

def loginRequest (username password : String) : HttpRequest where
  url := "/auth/login"
  method := "POST"
  headers := jsonHeaders
  credentials := true
  body := some (.json (.obj [("username", .str username), ("password", .str password)]))

def refreshRequest : HttpRequest where
  url := "/auth/refresh"
  method := "POST"
  headers := Attrs.absent
  credentials := true
  body := none

def logoutRequest (accessToken : Option Json) : HttpRequest where
  url := "/auth/logout"
  method := "POST"
  headers := Attrs.of [("authorization", bearerOf accessToken)]
  credentials := true
  body := none

def myInfoRequest : HttpRequest where
  url := "/myinfo"
  method := "GET"
  headers := Attrs.absent
  credentials := false
  body := none

/-- The calls that write posts. -/
inductive PostCall where
  | createPost (title content : String)
  | updatePost (id title content : String)
  | deletePost (id : String)

def postBody (title content : String) : Option Text :=
  some (.json (.obj [("title", .str title), ("content", .str content)]))

def PostCall.request : PostCall → HttpRequest
  | .createPost title content => ⟨"/posts", "POST", jsonHeaders, false, postBody title content⟩
  | .updatePost id title content =>
    ⟨"/posts/" ++ id, "PUT", jsonHeaders, false, postBody title content⟩
  | .deletePost id => ⟨"/posts/" ++ id, "DELETE", Attrs.absent, false, none⟩

theorem PostCall.request_url (call : PostCall) : startsWith call.request.url "/posts" = true := by
  have hpost : ∀ id : String, startsWith ("/posts/" ++ id) "/posts" = true := fun id => by
    have hsplit : "/posts/" ++ id = "/posts" ++ ("/" ++ id) := by
      rw [← String.append_assoc]
      rfl
    rw [hsplit]
    exact startsWith_append "/posts" _
  cases call with
  | createPost title content => exact startsWith_append "/posts" ""
  | updatePost id title content => exact hpost id
  | deletePost id => exact hpost id

/-! ## 3. Flows -/

def fetchWithAuth (init : HttpRequest) : Async HttpResponse := do
  let res ← fetch (authorized init (← now .accessToken))
  if res.status = 401 then
    let refreshRes ← fetch refreshRequest
    if refreshRes.ok then
      let data ← json refreshRes
      now (.setAccessToken (← property data "accessToken"))
      fetch (authorized init (← now .accessToken))
    else throw ⟨"Error", "Unauthorized"⟩
  else return res

/-- `Login.login` -/
def login (username password : String) : Async Unit := do
  let res ← fetch (loginRequest username password)
  if res.ok then
    let data ← json res
    now (.setAccessToken (← property data "accessToken"))
    now (.setUser (some (.str username)))

/-- `Home.logout` -/
def logout : Async Unit := do
  let _ ← fetch (logoutRequest (← now .accessToken))
  now (.setAccessToken empty)
  now (.setUser empty)

/-- `App`'s effect -/
def tryRefresh : Async Unit := do
  let res ← fetch refreshRequest
  if res.ok then
    let data ← json res
    now (.setAccessToken (← property data "accessToken"))
    let info ← fetchWithAuth myInfoRequest
    if info.ok then
      let userInfo ← json info
      now (.setUser (← property userInfo "username"))

/-- What a flow is started for. -/
inductive Kind where
  | load
  | login (username password : String)
  | logout
  | post (call : PostCall)

def Kind.code : Kind → Flow (Except Error Unit)
  | .load => tryRefresh.run
  | .login username password => (Frontend.login username password).run
  | .logout => Frontend.logout.run
  | .post call => (do let _ ← fetchWithAuth call.request : Async Unit).run

/-! ## 4. What a block does -/

/-- The block in which the logout clears the variables. -/
def Clears (k : Kind) : Origin Wait.Out → Prop
  | .answered (.fetch _) (.ok _) => k = .logout
  | _ => False

/-- **What a block of a flow may write.** -/
inductive Writes (k : Kind) : Origin Wait.Out → Vars → Vars → Prop where
  | keep (o : Origin Wait.Out) (v : Vars) (ho : ¬ Clears k o) : Writes k o v v
  | logout (hk : k = .logout) (req : HttpRequest) (r : Except Error HttpResponse) (v : Vars) :
      Writes k (.answered (.fetch req) r) v Vars.start
  | login (user password : String) (hk : k = .login user password) (res : HttpResponse) (data : Json)
      (v : Vars) (hok : res.ok = true) (hurl : res.url = "/auth/login")
      (hbody : res.body = .json data) :
      Writes k (.answered (.json res) (.ok data)) v ⟨data.get? "accessToken", some (.str user)⟩
  | refresh (res : HttpResponse) (data : Json) (v : Vars) (hok : res.ok = true)
      (hurl : res.url = "/auth/refresh") (hbody : res.body = .json data) :
      Writes k (.answered (.json res) (.ok data)) v ⟨data.get? "accessToken", v.user⟩
  | myInfo (hk : k = .load) (res : HttpResponse) (data : Json) (v : Vars) (hok : res.ok = true)
      (hurl : res.url = "/myinfo") (hbody : res.body = .json data) :
      Writes k (.answered (.json res) (.ok data)) v ⟨v.accessToken, data.get? "username"⟩

/-- **What a block of a flow may await at its end.** -/
inductive Awaits (k : Kind) : Origin Wait.Out → Vars → Wait → Prop where
  | login (user password : String) (hk : k = .login user password) (v : Vars) :
      Awaits k .begun v (.fetch (loginRequest user password))
  | refresh (o : Origin Wait.Out) (v : Vars) : Awaits k o v (.fetch refreshRequest)
  | logout (o : Origin Wait.Out) (v : Vars) : Awaits k o v (.fetch (logoutRequest v.accessToken))
  | myInfo (o : Origin Wait.Out) (v : Vars) :
      Awaits k o v (.fetch (authorized myInfoRequest v.accessToken))
  | post (call : PostCall) (o : Origin Wait.Out) (v : Vars) :
      Awaits k o v (.fetch (authorized call.request v.accessToken))
  | json (req : HttpRequest) (res : HttpResponse) (v : Vars) (hok : res.ok = true) :
      Awaits k (.answered (.fetch req) (.ok res)) v (.json res)

/-- What the browser answers. -/
def answers : (a : Wait) → a.Out → Prop
  | .fetch req, r => ∀ res, r = .ok res → res.url = req.url
  | .json res, r => ∀ data, r = .ok data → res.body = .json data

def contract (k : Kind) : Contract Vars Wait.Out where
  writes := Writes k
  awaits := Awaits k
  answers := answers

section Obeys

variable {k : Kind} {o : Origin Wait.Out} {v v₀ : Vars}

/-- A request, and what is done with its response. -/
theorem obeys_fetch {α : Type} {req : HttpRequest} {next : HttpResponse → Async α}
    (hv : Writes k o v₀ v) (hreq : Awaits k o v (.fetch req))
    (hnext : ∀ res v₁, res.url = req.url →
      Obeys access (contract k) (.answered (.fetch req) (.ok res)) v₁ (next res).run v₁) :
    Obeys access (contract k) o v₀ (fetch req >>= next).run v := by
  refine ⟨hv, hreq, fun r hr v₁ => ?_⟩
  cases r with
  | error e => exact .keep _ _ id
  | ok res => exact hnext res v₁ (hr res rfl)

/-- A body, and what is done with it. -/
theorem obeys_json {α : Type} {req : HttpRequest} {res : HttpResponse} {next : Json → Async α}
    (hv : Writes k (.answered (.fetch req) (.ok res)) v₀ v) (hok : res.ok = true)
    (hnext : ∀ data v₁, res.body = .json data →
      Obeys access (contract k) (.answered (.json res) (.ok data)) v₁ (next data).run v₁) :
    Obeys access (contract k) (.answered (.fetch req) (.ok res)) v₀ (json res >>= next).run v := by
  refine ⟨hv, .json req res v hok, fun r hr v₁ => ?_⟩
  cases r with
  | error e => exact .keep _ _ id
  | ok data => exact hnext data v₁ (hr data rfl)

/-- A property that is read; of `null` the flow throws. -/
theorem obeys_property {α : Type} {data : Json} {key : String} {next : Option Json → Async α}
    (hv : Writes k o v₀ v)
    (hnext : Obeys access (contract k) o v₀ (next (data.get? key)).run v) :
    Obeys access (contract k) o v₀ (liftM (property data key) >>= next).run v := by
  cases data with
  | null => exact hv
  | _ => exact hnext

theorem fetchWithAuth_obeys {α : Type} (hk : k ≠ .logout) {init : HttpRequest}
    {next : HttpResponse → Async α}
    (hinit : ∀ o v, Awaits k o v (.fetch (authorized init v.accessToken)))
    (hnext : ∀ req res v₁, res.url = init.url →
      Obeys access (contract k) (.answered (.fetch req) (.ok res)) v₁ (next res).run v₁)
    (hv : Writes k o v₀ v) : Obeys access (contract k) o v₀ (fetchWithAuth init >>= next).run v := by
  unfold fetchWithAuth
  simp only [bind_assoc]
  refine obeys_fetch hv (hinit o v) fun res v₁ hurl => ?_
  by_cases h401 : res.status = 401
  · simp only [h401, if_true, bind_assoc]
    refine obeys_fetch (.keep _ _ hk) (.refresh _ _) fun refreshRes v₂ hurl₂ => ?_
    by_cases hok : refreshRes.ok = true
    · simp only [hok, if_true, bind_assoc]
      refine obeys_json (.keep _ _ hk) hok fun data v₃ hbody => ?_
      refine obeys_property (.keep _ _ id) ?_
      have hwrites := Writes.refresh (k := k) refreshRes data v₃ hok hurl₂ hbody
      exact obeys_fetch hwrites (hinit _ _) fun res v₄ hurl₄ => hnext _ res v₄ hurl₄
    · simp only [hok]
      exact .keep _ _ hk
  · simp only [h401, if_false, pure_bind]
    exact hnext _ res v₁ hurl

/-- **Every flow obeys the contract of its kind.** -/
theorem code_obeys (k : Kind) (v : Vars) :
    Obeys access (contract k) .begun v k.code v := by
  cases k with
  | load =>
      show Obeys _ _ _ _ tryRefresh.run _
      unfold tryRefresh
      refine obeys_fetch (.keep _ _ id) (.refresh _ _) fun res v₁ hurl => ?_
      by_cases hok : res.ok = true
      · simp only [hok, if_true]
        refine obeys_json (.keep _ _ nofun) hok fun data v₂ hbody => ?_
        refine obeys_property (.keep _ _ id) ?_
        have hwrites := Writes.refresh (k := .load) res data v₂ hok hurl hbody
        refine fetchWithAuth_obeys (k := .load) nofun .myInfo (fun req info v₃ hurl₃ => ?_) hwrites
        by_cases hinfo : info.ok = true
        · simp only [hinfo, if_true]
          refine obeys_json (.keep _ _ nofun) hinfo fun userInfo v₄ hbody₄ => ?_
          refine obeys_property (.keep _ _ id) ?_
          exact .myInfo rfl info userInfo v₄ hinfo hurl₃ hbody₄
        · simp only [hinfo]
          exact .keep _ _ nofun
      · simp only [hok]
        exact .keep _ _ nofun
  | login username password =>
      show Obeys _ _ _ _ (Frontend.login username password).run _
      unfold Frontend.login
      refine obeys_fetch (.keep _ _ id) (.login _ _ rfl _) fun res v₁ hurl => ?_
      by_cases hok : res.ok = true
      · simp only [hok, if_true]
        refine obeys_json (.keep _ _ nofun) hok fun data v₂ hbody => ?_
        refine obeys_property (.keep _ _ id) ?_
        exact .login username password rfl res data v₂ hok hurl hbody
      · simp only [hok]
        exact .keep _ _ nofun
  | logout =>
      show Obeys _ _ _ _ Frontend.logout.run _
      unfold Frontend.logout
      exact obeys_fetch (.keep _ _ id) (.logout _ _) fun res v₁ _ => .logout rfl _ _ _
  | post call =>
      exact fetchWithAuth_obeys (k := .post call) nofun (.post call)
        (fun req res v₁ _ => .keep _ _ nofun) (.keep _ _ id)

end Obeys

end Frontend
