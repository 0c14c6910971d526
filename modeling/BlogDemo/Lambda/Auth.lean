/-
  File:      BlogDemo/Lambda/Auth.lean
  Subject:   THE AUTH HANDLERS OF THE LAMBDA BACKEND (backend/functions/auth/login, refresh, logout and
             functions/user/myInfo) over the Cognito user pool.

  A handler is a program of Cognito commands, as the post handlers are one of DynamoDB commands. A
  `Set-Cookie` header is the record of its parts (`SetCookie`), a body the object it is the JSON of.

  * `login_ok`, `refresh_ok`, `myInfo_ok` -- what a handler found in the pool when it answers 200;
  * `logout_cookie` -- the only cookie the logout sets is the one that deletes it.
-/
import BlogDemo.Lambda.Handlers
import BlogDemo.Lib.Cognito

namespace Auth

open Js Atomic Cognito
open Lambda (HTTPError badRequest unAuthorized internalServerError required)

/-! ## 1. Events and responses -/

/-- What the auth handlers read of an event. -/
structure Event where
  headers : Attrs String
  cookies : List String
  body : Option Text

structure SetCookie where
  name : String
  value : String
  httpOnly : Bool
  path : String
  maxAge : Nat
  sameSite : String
  secure : Bool

structure Response where
  statusCode : Nat
  setCookie : Option SetCookie
  body : Json

/-- `error(err, code)` -/
def error (err : HTTPError) (code : String) : Response :=
  ⟨err.statusCode, none, .obj [("error", .str err.message), ("code", .str code)]⟩

/-- An object literal as `JSON.stringify` has it: without what is `undefined`. -/
def object (fields : List (String × Option Json)) : Json :=
  .obj (fields.filterMap fun f => f.2.map (f.1, ·))

/-- `{ …fields, ...others }`: the others overwrite fields of their name, in their places. -/
def spread (fields others : List (String × Option Json)) : List (String × Option Json) :=
  fields.map (fun f => (f.1, (others.lookup f.1).getD f.2)) ++
    others.filter fun o => !fields.any (·.1 == o.1)

abbrev Handler := Prog Command Answer Response

/-- `await client.send(command)` -/
def send (command : Command) : ExceptT Error (Prog Command Answer) Output :=
  ExceptT.mk (Prog.send command)

def refreshCookie (value : String) (maxAge : Nat) : SetCookie :=
  ⟨"refreshToken", value, true, "/", maxAge, "None", true⟩

/-- `event.headers?.Authorization ?? event.headers?.authorization` -/
def authHeader (event : Event) : Option String :=
  (event.headers "Authorization").or (event.headers "authorization")

/-- The access token, unless `!authHeader || !authHeader.startsWith('Bearer ')`. -/
def bearer (header : Option String) : Option String :=
  match header with
  | some h => if startsWith h "Bearer " then some (slice h "Bearer ") else none
  | none => none

/-! ## 2. The handlers -/

/-- What login.ts answers an error with. -/
def loginError (err : Error) : Response :=
  if err.name = "NotAuthorizedException" then
    error (badRequest "Invalid username or password") "ERR_LOGIN_INVALID_CREDENTIALS"
  else if err.name = "UserNotConfirmedException" then
    error (badRequest "User is not confirmed. Please confirm your email first.")
      "ERR_LOGIN_USER_NOT_CONFIRMED"
  else if err.name = "PasswordResetRequiredException" then
    error (badRequest "Password reset is required. Please reset your password.")
      "ERR_LOGIN_PASSWORD_RESET_REQUIRED"
  else if err.name = "UserNotFoundException" then
    error (badRequest "User not found. Please check your username.") "ERR_LOGIN_USER_NOT_FOUND"
  else error (internalServerError err.message) "ERR_LOGIN_INTERNAL_SERVER_ERROR"

/-- `handler` of login.ts -/
def login (event : Event) : Handler :=
  Prog.catching (ε := Error) (do
    let data ← parse (event.body.getD (.json (.obj [])))
    let data ← destructure "username" data
    let username := data.get? "username"
    let password := data.get? "password"
    if !truthy username || !truthy password then
      return error (badRequest (required ["username", "password"])) "ERR_LOGIN_BAD_REQUEST"
    let result ← send (.passwordAuth (username.getD .null) (password.getD .null))
    let accessToken := result.authenticationResult.bind (·.accessToken)
    let idToken := result.authenticationResult.bind (·.idToken)
    let refreshToken := result.authenticationResult.bind (·.refreshToken)
    let maxAge := 30 * 24 * 60 * 60
    return ⟨200, some (refreshCookie (refreshToken.getD "undefined") maxAge),
      object [("accessToken", accessToken.map .str), ("idToken", idToken.map .str)]⟩)
    loginError

/-- What refresh.ts answers an error with. -/
def refreshError (err : Error) : Response :=
  if err.name = "NotAuthorizedException" then error unAuthorized "ERR_REFRESH_INVALID_TOKEN"
  else if err.name = "InvalidParameterException" then
    error unAuthorized "ERR_REFRESH_INVALID_PARAMETER"
  else if err.name = "UserNotFoundException" then error unAuthorized "ERR_REFRESH_USER_NOT_FOUND"
  else error (internalServerError err.message) "ERR_REFRESH_INTERNAL_SERVER_ERROR"

/-- `cookies.find((c) => c.startsWith('refreshToken='))?.split('=')[1]` -/
def refreshTokenOf (cookies : List String) : Option String :=
  (cookies.find? (startsWith · "refreshToken=")).map fun c =>
    String.ofList ((slice c "refreshToken=").toList.takeWhile (· != '='))

/-- `handler` of refresh.ts -/
def refresh (event : Event) : Handler :=
  Prog.catching (ε := Error) (do
    let refreshToken := (refreshTokenOf event.cookies).getD ""
    if refreshToken = "" then return error unAuthorized "ERR_REFRESH_UNAUTHORIZED"
    let response ← send (.refreshTokenAuth refreshToken)
    let result := response.authenticationResult
    return ⟨200, none, object [
      ("accessToken", (result.bind (·.accessToken)).map .str),
      ("idToken", (result.bind (·.idToken)).map .str),
      ("expiresIn", (result.bind (·.expiresIn)).map fun n => .num (.int n))]⟩)
    refreshError

/-- `handler` of logout.ts -/
def logout (event : Event) : Handler :=
  Prog.catching (ε := Error) (do
    match bearer (authHeader event) with
    | none => return error unAuthorized "ERR_LOGOUT_UNAUTHORIZED"
    | some accessToken =>
      let _ ← send (.globalSignOut accessToken)
      return ⟨200, some (refreshCookie "" 0),
        .obj [("message", .str "Logged out successfully")]⟩)
    fun err => error (internalServerError err.message) "ERR_LOGOUT_INTERNAL_SERVER_ERROR"

/-- `handler` of myInfo.ts -/
def myInfo (event : Event) : Handler :=
  Prog.catching (ε := Error) (do
    match bearer (authHeader event) with
    | none => return error unAuthorized "ERR_GET_USER_UNAUTHORIZED"
    | some accessToken =>
      let result ← send (.getUser accessToken)
      return ⟨200, none, object (spread [("username", result.username.map .str)]
        (result.userAttributes.map fun a => (a.1, some (.str a.2))))⟩)
    fun err => error (internalServerError err.message) "ERR_GET_USER_INTERNAL_SERVER_ERROR"

/-! ## 3. What an answer says of the pool -/

/-- The response of a handler, and the pool after it. -/
def serve (handler : Handler) (d : Decision) (p : Pool) : Response × Pool :=
  (handler.run (exec d) p).2

def Response.ok (r : Response) : Bool := 200 ≤ r.statusCode && r.statusCode ≤ 299

theorem serve_ret (r : Response) (d : Decision) (p : Pool) : serve (.ret r) d p = (r, p) := rfl

theorem serve_call (c : Command) (next : Answer c → Handler) (d : Decision) (p : Pool) :
    serve (.call c next) d p = serve (next (exec d c p).1) d (exec d c p).2 := rfl

@[simp] theorem catching_client {α : Type} (c : Command)
    (f : Output → ExceptT Error (Prog Command Answer) α) (handle : Error → α) :
    Prog.catching (send c >>= f) handle = .call c fun r => match r with
      | .ok x => Prog.catching (f x) handle
      | .error e => .ret (handle e) := by
  refine congrArg (Prog.call c) (funext fun r => ?_)
  cases r <;> rfl

theorem serve_le (handler : Handler) (d : Decision) (p : Pool) : p.Le (serve handler d p).2 := by
  induction handler generalizing p with
  | ret r => exact .refl p
  | call c next ih => exact (exec_le d c p).trans (ih _ _)

theorem loginError_not_ok (e : Error) : (loginError e).ok = false := by
  unfold loginError
  repeat' split
  all_goals rfl

theorem refreshError_not_ok (e : Error) : (refreshError e).ok = false := by
  unfold refreshError
  repeat' split
  all_goals rfl

/-- What a login that is answered 200 found, and what it hands out. -/
structure LoggedIn (d : Decision) (event : Event) (p p' : Pool) (r : Response)
    (user password : String) : Prop where
  body : ∃ data, event.body = some (.json data) ∧ data.get? "username" = some (.str user) ∧
    data.get? "password" = some (.str password)
  password : p.password user = some password
  access : r.body.get? "accessToken" = some (.str d.access)
  cookie : r.setCookie = some (refreshCookie d.refresh (30 * 24 * 60 * 60))
  tokens : freshAccess p d.access = true ∧ freshRefresh p d.refresh = true
  pool : p' = (p.issueAccess d.access user).issueRefresh d.refresh user

theorem getD_str {v : Option Json} {t : String} (h : v.getD .null = .str t) : v = some (.str t) := by
  cases v with
  | none => cases h
  | some x => exact congrArg some h

theorem parse_ok {text : Text} {v : Json} (h : parse text = .ok v) : text = .json v := by
  cases text with
  | malformed m => cases h
  | json x =>
      cases h
      rfl

theorem destructure_ok {key : String} {v w : Json} (h : destructure key v = .ok w) : w = v := by
  cases v <;> cases h <;> rfl

/-- A handler whose error responses are no success answered the response of its `try` block. -/
theorem serve_send {d : Decision} {p p' : Pool} {c : Command} {f : Output → Response}
    {handle : Error → Response} {r : Response}
    (h : serve (.call c fun x => match x with
      | .ok out => .ret (f out)
      | .error e => .ret (handle e)) d p = (r, p'))
    (hhandle : ∀ e, (handle e).ok = false) (hok : r.ok = true) :
    ∃ out, nominal d c p = (.ok out, p') ∧ r = f out := by
  rw [serve_call] at h
  cases hexec : exec d c p with
  | mk answer p₁ =>
      rw [hexec] at h
      cases answer with
      | error e =>
          cases h
          rw [hhandle] at hok
          cases hok
      | ok out =>
          cases h
          exact ⟨out, exec_ok hexec, rfl⟩

theorem login_ok {d : Decision} {event : Event} {p : Pool}
    (hok : (serve (login event) d p).1.ok = true) : ∃ user password,
      LoggedIn d event p (serve (login event) d p).2 (serve (login event) d p).1 user password := by
  generalize h : serve (login event) d p = x at hok ⊢
  obtain ⟨r, p'⟩ := x
  unfold login at h
  cases hparse : parse (event.body.getD (.json (.obj []))) with
  | error e =>
      simp only [hparse, Prog.catching_lift, serve_ret] at h
      cases h
      rw [loginError_not_ok] at hok
      cases hok
  | ok data =>
      cases hdata : destructure "username" data with
      | error e =>
          simp only [hparse, hdata, Prog.catching_lift, serve_ret] at h
          cases h
          rw [loginError_not_ok] at hok
          cases hok
      | ok data' =>
          simp only [hparse, hdata, Prog.catching_lift, Prog.catching_ite, catching_client] at h
          split at h
          · cases h
            cases hok
          · obtain ⟨out, hnominal, rfl⟩ := serve_send h loginError_not_ok hok
            obtain ⟨u, w, hu, hw, hpassword, ha, hr, rfl, rfl⟩ := passwordAuth_ok hnominal
            have huser : data'.get? "username" = some (.str u) := getD_str hu
            have hword : data'.get? "password" = some (.str w) := getD_str hw
            obtain rfl := destructure_ok hdata
            have hbody : event.body = some (.json data') := by
              cases hb : event.body with
              | none =>
                  rw [hb] at hparse
                  cases hparse
                  cases huser
              | some text =>
                  rw [hb] at hparse
                  exact congrArg some (parse_ok hparse)
            exact ⟨u, w, ⟨_, hbody, huser, hword⟩, hpassword, rfl, rfl, ⟨ha, hr⟩, rfl⟩

/-- **A refresh that is answered 200** found a refresh token that is good, and hands out an access
    token of its user. -/
theorem refresh_ok {d : Decision} {event : Event} {p : Pool}
    (hok : (serve (refresh event) d p).1.ok = true) :
    ∃ token user, refreshTokenOf event.cookies = some token ∧ p.refreshes token = some user ∧
      (serve (refresh event) d p).1.body.get? "accessToken" = some (.str d.access) ∧
      freshAccess p d.access = true ∧
      (serve (refresh event) d p).2 = p.issueAccess d.access user := by
  generalize h : serve (refresh event) d p = x at hok ⊢
  obtain ⟨r, p'⟩ := x
  unfold refresh at h
  simp only [Prog.catching_ite, catching_client] at h
  split at h
  · cases h
    cases hok
  · rename_i hne
    obtain ⟨out, hnominal, rfl⟩ := serve_send h refreshError_not_ok hok
    obtain ⟨u, hu, ha, rfl, rfl⟩ := refreshTokenAuth_ok hnominal
    cases htoken : refreshTokenOf event.cookies with
    | none => exact absurd (by rw [htoken]; rfl) hne
    | some token =>
        rw [htoken] at hu
        exact ⟨token, u, rfl, hu, rfl, ha, rfl⟩

/-- What myInfo.ts answers for a user. -/
def infoOf (u : String) (attributes : List (String × String)) : Response :=
  ⟨200, none, object (spread [("username", some (.str u))]
    (attributes.map fun a => (a.1, some (.str a.2))))⟩

/-- **A question for a user that is answered 200** was asked with an access token that is good. -/
theorem myInfo_ok {d : Decision} {event : Event} {p : Pool}
    (hok : (serve (myInfo event) d p).1.ok = true) :
    ∃ token u, bearer (authHeader event) = some token ∧ p.userOf token = some u ∧
      (serve (myInfo event) d p).1 = infoOf u (p.attributes u) := by
  generalize h : serve (myInfo event) d p = x at hok ⊢
  obtain ⟨r, p'⟩ := x
  unfold myInfo at h
  cases htoken : bearer (authHeader event) with
  | none =>
      simp only [htoken, Prog.catching_pure, serve_ret] at h
      cases h
      cases hok
  | some token =>
      simp only [htoken, catching_client] at h
      obtain ⟨out, hnominal, rfl⟩ := serve_send h (fun _ => rfl) hok
      obtain ⟨u, hu, rfl, _⟩ := getUser_ok hnominal
      exact ⟨token, u, rfl, hu, rfl⟩

/-- A key all of whose values are strings is read as a string. -/
theorem lookup_str {fields : List (String × Json)} {key : String}
    (hmem : ∃ v, (key, v) ∈ fields) (hstr : ∀ v, (key, v) ∈ fields → ∃ s, v = .str s) :
    ∃ s, (Json.obj fields).get? key = some (.str s) := by
  show ∃ s, fields.lookup key = some (.str s)
  cases hlookup : fields.lookup key with
  | none =>
      obtain ⟨v, hv⟩ := hmem
      exact absurd (List.lookup_eq_none_iff.mp hlookup _ hv) (by simp)
  | some v =>
      obtain ⟨l₁, l₂, hfields, _⟩ := List.lookup_eq_some_iff.mp hlookup
      obtain ⟨s, rfl⟩ := hstr v (by simp [hfields])
      exact ⟨s, rfl⟩

/-- **The answer names a user**: the one of the token, or an attribute of that name. -/
theorem infoOf_username (u : String) (attributes : List (String × String)) :
    ∃ user, (infoOf u attributes).body.get? "username" = some (.str user) := by
  have hattr : ∀ v, (attributes.map fun a => (a.1, some (Json.str a.2))).lookup "username" = some v →
      ∃ s, v = some (.str s) := by
    intro v hv
    obtain ⟨l₁, l₂, hl, _⟩ := List.lookup_eq_some_iff.mp hv
    have hmem : ("username", v) ∈ attributes.map fun a => (a.1, some (Json.str a.2)) := by simp [hl]
    obtain ⟨a, _, ha⟩ := List.mem_map.mp hmem
    exact ⟨a.2, (Prod.ext_iff.mp ha).2.symm⟩
  have hname : ∃ s, ((attributes.map fun a => (a.1, some (Json.str a.2))).lookup "username").getD
      (some (.str u)) = some (.str s) := by
    cases hlookup : (attributes.map fun a => (a.1, some (Json.str a.2))).lookup "username" with
    | none => exact ⟨u, rfl⟩
    | some v => exact hattr v hlookup
  obtain ⟨user, huser⟩ := hname
  refine lookup_str ⟨.str user, ?_⟩ fun v hv => ?_
  · exact List.mem_filterMap.mpr ⟨("username", some (.str user)),
      List.mem_append_left _ (by simp [huser]), rfl⟩
  · obtain ⟨f, hf, hsome⟩ := List.mem_filterMap.mp hv
    rcases List.mem_append.mp hf with hf | hf
    · obtain ⟨x, hx, rfl⟩ := List.mem_map.mp hf
      obtain rfl := List.mem_singleton.mp hx
      simp only [huser] at hsome
      exact ⟨user, (Prod.ext_iff.mp (Option.some.inj hsome)).2.symm⟩
    · obtain ⟨a, _, rfl⟩ := List.mem_map.mp (List.mem_filter.mp hf).1
      exact ⟨a.2, (Prod.ext_iff.mp (Option.some.inj hsome)).2.symm⟩

/-- What every answer of a handler satisfies, whatever Cognito says. -/
theorem serve_meets {handler : Handler} {P : Response → Prop}
    (h : handler.Meets (fun _ => True) (fun _ _ => True) P) (d : Decision) (p : Pool) :
    P (serve handler d p).1 := by
  induction handler generalizing p with
  | ret r => exact h
  | call c next ih => exact ih _ (h.2 _ trivial) _

/-- A response that sets no cookie, or deletes it. -/
def NoCookie (r : Response) : Prop := ∀ c ∈ r.setCookie, c.maxAge = 0

/-- The login sets a cookie only when it succeeds. -/
theorem login_cookie (event : Event) (d : Decision) (p : Pool) :
    (serve (login event) d p).1.ok = true ∨ NoCookie (serve (login event) d p).1 := by
  have herror : ∀ e, NoCookie (loginError e) := by
    intro e
    unfold loginError
    repeat' split
    all_goals exact nofun
  refine serve_meets (P := fun r => r.ok = true ∨ NoCookie r) ?_ d p
  unfold login
  cases parse (event.body.getD (.json (.obj []))) with
  | error e => exact Or.inr (herror e)
  | ok data =>
      cases hdata : destructure "username" data with
      | error e =>
          simp only [hdata, Prog.catching_lift]
          exact Or.inr (herror e)
      | ok data =>
          simp only [hdata, Prog.catching_lift, Prog.catching_ite, catching_client]
          split
          · exact Or.inr nofun
          · refine ⟨trivial, fun r _ => ?_⟩
            cases r with
            | ok out => exact Or.inl rfl
            | error e => exact Or.inr (herror e)

theorem refresh_cookie (event : Event) (d : Decision) (p : Pool) :
    NoCookie (serve (refresh event) d p).1 := by
  refine serve_meets ?_ d p
  unfold refresh
  simp only [Prog.catching_ite, catching_client]
  split
  · exact nofun
  · refine ⟨trivial, fun r _ => ?_⟩
    cases r with
    | ok out => exact nofun
    | error e =>
        show NoCookie (refreshError e)
        unfold refreshError
        repeat' split
        all_goals exact nofun

theorem myInfo_cookie (event : Event) (d : Decision) (p : Pool) :
    NoCookie (serve (myInfo event) d p).1 := by
  refine serve_meets ?_ d p
  unfold myInfo
  cases bearer (authHeader event) with
  | none => exact nofun
  | some token =>
      simp only [catching_client]
      refine ⟨trivial, fun r _ => ?_⟩
      cases r <;> exact nofun

/-- **The only cookie the logout sets** is the one that deletes it. -/
theorem logout_cookie (event : Event) (d : Decision) (p : Pool) :
    NoCookie (serve (logout event) d p).1 := by
  refine serve_meets ?_ d p
  unfold logout
  cases bearer (authHeader event) with
  | none => exact nofun
  | some token =>
      simp only [catching_client]
      refine ⟨trivial, fun r _ => ?_⟩
      cases r with
      | ok out =>
          intro c hc
          cases hc
          rfl
      | error e => exact nofun

end Auth
