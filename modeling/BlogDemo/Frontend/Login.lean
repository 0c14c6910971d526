/-
  File:      BlogDemo/Frontend/Login.lean
  Subject:   WHOM A LOGIN IS REPORTED FOR: the Login component, served by the handlers of the backend
             over every outcome of InitiateAuth.

  * `component_iff` -- whom the component sets `user` and `accessToken` for;
  * **`authenticated_iff`** -- a login is reported only for whom Cognito has authenticated, by the two
    handlers and by the component, if and only if no result lacks a token that is handed out.
-/
import BlogDemo.Frontend.App
import BlogDemo.Lambda.Tokens

namespace Login

open Js Atomic EventLoop Gateway Cognito Auth Tokens
open Frontend (Access Wait Vars access)

/-! ## 1. The Login component -/

/-- The response of the login handler to this request. -/
def respondLogin (service : Service) (req : HttpRequest) (cookie : Option String) : HttpResponse :=
  let r := answer service (Auth.login (eventOf req cookie))
  ⟨req.url, r.statusCode, r.setCookie, .json r.body⟩

/-- What `fetch` gives for a login request: the response of the handler, one of the gateway that
    reached no handler, or no response. -/
inductive Served (service : Service) (req : HttpRequest) : Except Error HttpResponse → Prop where
  | handled (cookie : Option String) : Served service req (.ok (respondLogin service req cookie))
  | unavailable (res : HttpResponse) (hres : res.ok = false) : Served service req (.ok res)
  | failed (e : Error) : Served service req (.error e)

/-- What an instruction of the component gives. Other flows may write the variables while it
    awaits something. -/
inductive Given (service : Service) :
    Effect (Instr Access Wait) (Instr.Out Access.Out Wait.Out) Vars where
  | now (a : Access) (v : Vars) : Given service (.now a) v (access a v).1 (access a v).2
  | fetch (req : HttpRequest) (r : Except Error HttpResponse) (v v' : Vars)
      (h : Served service req r) : Given service (.await (.fetch req)) v r v'
  | json (res : HttpResponse) (r : Except Error Json) (v v' : Vars)
      (h : ∀ data, r = .ok data → res.body = .json data) :
      Given service (.await (.json res)) v r v'

/-- The component has set one of the two variables. -/
def Sets (es : List (Made (Instr Access Wait) (Instr.Out Access.Out Wait.Out))) : Prop :=
  ∃ m ∈ es, (∃ value, m.op = .now (.setUser value)) ∨ ∃ value, m.op = .now (.setAccessToken value)

/-- Cognito has authenticated the user with this password. -/
def Authenticated (service : Service) (username password : String) : Prop :=
  ∃ out, service (.passwordAuth (.str username) (.str password)) = .ok out ∧ CarriesLogin out

/-- **The component sets the variables only for whom Cognito has authenticated.** -/
def SetsAuthenticated (service : Service) (username password : String) : Prop :=
  ∀ v es r v', Exec (Given service) (Frontend.login username password).run v es r v' →
    Sets es → Authenticated service username password

section Component

variable {service : Service} {username password : String}

theorem eventOf_body (cookie : Option String) :
    (eventOf (Frontend.loginRequest username password) cookie).body =
      loginBody username password := rfl

theorem respondLogin_result (hu : username ≠ "") (hp : password ≠ "") (cookie : Option String)
    {out : Output} (h : service (.passwordAuth (.str username) (.str password)) = .ok out) :
    respondLogin service (Frontend.loginRequest username password) cookie =
      ⟨"/auth/login", 200, (loginResponse out).setCookie, .json (loginResponse out).body⟩ := by
  obtain ⟨next, hlogin, hok, -⟩ := login_asks (eventOf_body cookie) hu hp
  simp only [respondLogin, answer, hlogin, Prog.run_call, h, hok, Prog.run_ret]
  rfl

/-- The handler's answer is a success only if Cognito gave a result. -/
theorem respondLogin_ok {cookie : Option String}
    (h : (respondLogin service (Frontend.loginRequest username password) cookie).ok = true) :
    username ≠ "" ∧ password ≠ "" ∧
      ∃ out, service (.passwordAuth (.str username) (.str password)) = .ok out := by
  by_cases hempty : username = "" ∨ password = ""
  · simp only [respondLogin, answer, login_refused (eventOf_body cookie) hempty, Prog.run_ret] at h
    cases h
  · obtain ⟨hu, hp⟩ := not_or.mp hempty
    refine ⟨hu, hp, ?_⟩
    cases hout : service (.passwordAuth (.str username) (.str password)) with
    | ok out => exact ⟨out, rfl⟩
    | error e =>
      obtain ⟨next, hlogin, -, herror⟩ := login_asks (eventOf_body cookie) hu hp
      simp only [respondLogin, answer, hlogin, Prog.run_call, hout, herror, Prog.run_ret] at h
      have hnot := loginError_not_ok e
      rw [Response.ok] at hnot
      rw [HttpResponse.ok, hnot] at h
      cases h

/-- An await sets nothing. -/
theorem not_sets_await (w : Wait) (x : w.Out) : ¬ Sets [⟨.await w, x⟩] := by
  intro h
  obtain ⟨m, hm, hop⟩ := h
  obtain rfl := List.mem_singleton.mp hm
  rcases hop with ⟨value, hop⟩ | ⟨value, hop⟩
  · cases hop
  · cases hop

/-- A run of the component that sets a variable was served a success. -/
theorem sets_served {v v' : Vars} {r : Except Error Unit}
    {es : List (Made (Instr Access Wait) (Instr.Out Access.Out Wait.Out))}
    (h : Exec (Given service) (Frontend.login username password).run v es r v') (hsets : Sets es) :
    ∃ cookie, (respondLogin service (Frontend.loginRequest username password) cookie).ok = true := by
  obtain ⟨fetched, v₁, es₁, rfl, hgiven, hrest⟩ := exec_call h
  cases hgiven with
  | fetch req fetched v v₁ hserved =>
    cases fetched with
    | error e =>
      obtain ⟨rfl, -, -⟩ := exec_ret hrest
      exact absurd hsets (not_sets_await _ _)
    | ok res =>
      by_cases hok : res.ok = true
      · cases hserved with
        | handled cookie => exact ⟨cookie, hok⟩
        | unavailable res hres =>
          rw [hres] at hok
          cases hok
      · -- the component alerts, and ends
        change Exec _ (ExceptT.run (if res.ok = true then _ else pure ())) _ _ _ _ at hrest
        rw [if_neg hok] at hrest
        obtain ⟨rfl, -, -⟩ := exec_ret hrest
        exact absurd hsets (not_sets_await _ _)

/-- There is a run of the component that is served the handler's answer, and sets the user. -/
theorem sets_of_result (hu : username ≠ "") (hp : password ≠ "") {out : Output}
    (h : service (.passwordAuth (.str username) (.str password)) = .ok out) :
    ∃ v es r v', Exec (Given service) (Frontend.login username password).run v es r v' ∧ Sets es := by
  have hres := respondLogin_result hu hp none h
  have hserved : Served service (Frontend.loginRequest username password)
      (.ok (respondLogin service (Frontend.loginRequest username password) none)) := .handled none
  rw [hres] at hserved
  let res : HttpResponse :=
    ⟨"/auth/login", 200, (loginResponse out).setCookie, .json (loginResponse out).body⟩
  let token := (loginResponse out).body.get? "accessToken"
  refine ⟨Vars.start, _, _, _,
    .call (.fetch _ (.ok res) _ Vars.start hserved)
      (.call (.json res (.ok (loginResponse out).body) _ Vars.start fun data hdata => ?_)
        (.call (.now (.setAccessToken token) Vars.start)
          (.call (.now (.setUser (some (.str username))) _) (.ret _ _)))),
    ⟨.now (.setUser (some (.str username))), ()⟩, ?_, Or.inl ⟨_, rfl⟩⟩
  · cases hdata
    rfl
  · simp

theorem component_iff (service : Service) (username password : String) :
    SetsAuthenticated service username password ↔
      (username ≠ "" → password ≠ "" → ∀ out,
        service (.passwordAuth (.str username) (.str password)) = .ok out → CarriesLogin out) := by
  constructor
  · intro h hu hp out hout
    obtain ⟨v, es, r, v', hexec, hsets⟩ := sets_of_result hu hp hout
    obtain ⟨out', hout', hcarries⟩ := h v es r v' hexec hsets
    rw [hout] at hout'
    cases hout'
    exact hcarries
  · intro h v es r v' hexec hsets
    obtain ⟨cookie, hok⟩ := sets_served hexec hsets
    obtain ⟨hu, hp, out, hout⟩ := respondLogin_ok hok
    exact ⟨out, hout, h hu hp out hout⟩

end Component

/-! ## 2. All three -/

/-- **A login is reported only for whom Cognito has authenticated**: by the handler of a login, by
    that of a refresh, and by the component, whose user typed these. -/
structure OnlyAuthenticated (service : Service) (event : Event) (username password : String) :
    Prop where
  login : ReportsBacked CarriesLogin service (Auth.login event)
  refresh : ReportsBacked CarriesTokens service (Auth.refresh event)
  component : SetsAuthenticated service username password

/-- No result that is answered lacks a token. -/
structure TokensGiven (service : Service) (event : Event) (username password : String) : Prop where
  login : Complete CarriesLogin service (Auth.login event)
  refresh : Complete CarriesTokens service (Auth.refresh event)
  component : username ≠ "" → password ≠ "" → ∀ out,
    service (.passwordAuth (.str username) (.str password)) = .ok out → CarriesLogin out

/-- **A login is reported only for whom Cognito has authenticated** if and only if no result lacks a
    token. -/
theorem authenticated_iff (service : Service) (event : Event) (username password : String) :
    OnlyAuthenticated service event username password ↔
      TokensGiven service event username password := by
  constructor
  · intro h
    exact ⟨(login_iff service event).mp h.login, (refresh_iff service event).mp h.refresh,
      (component_iff service username password).mp h.component⟩
  · intro h
    exact ⟨(login_iff service event).mpr h.login, (refresh_iff service event).mpr h.refresh,
      (component_iff service username password).mpr h.component⟩

/-- Every command is answered with a challenge. -/
def challenge : Service := fun _ => .ok {}

/-- Alice's login, from a browser that has a cookie. -/
def aliceEvent : Event := eventOf (Frontend.loginRequest "alice" "apple") (some "t")

/-- A challenge is reported as a login, in all three places. -/
theorem challenge_reported :
    ¬ ReportsBacked CarriesLogin challenge (Auth.login aliceEvent) ∧
      ¬ ReportsBacked CarriesTokens challenge (Auth.refresh aliceEvent) ∧
      ¬ SetsAuthenticated challenge "alice" "apple" := by
  have hlogin : calls challenge (Auth.login aliceEvent) =
      [⟨.passwordAuth (.str "alice") (.str "apple"), .ok {}⟩] := rfl
  have hrefresh : calls challenge (Auth.refresh aliceEvent) =
      [⟨.refreshTokenAuth "t", .ok {}⟩] := rfl
  refine ⟨fun h => ?_, fun h => ?_, fun h => ?_⟩
  · obtain ⟨result, hresult, -⟩ :=
      (login_iff _ _).mp h _ (hlogin ▸ List.mem_singleton_self _) {} rfl
    cases hresult
  · obtain ⟨result, hresult, -⟩ :=
      (refresh_iff _ _).mp h _ (hrefresh ▸ List.mem_singleton_self _) {} rfl
    cases hresult
  · obtain ⟨result, hresult, -⟩ :=
      (component_iff _ _ _).mp h (by decide) (by decide) {} rfl
    cases hresult

end Login
