/-
  File:      BlogDemo/Lambda/Tokens.lean
  Subject:   WHAT THE HANDLERS OF LOGIN AND REFRESH REPORT, over every outcome of their InitiateAuth.

  Cognito answers a command with a result or an exception. A result need not carry tokens: that of a
  challenge has no AuthenticationResult.

  * `OneCall` -- what the two handlers are made of;
  * **`login_iff`**, **`refresh_iff`** -- a success is reported only for tokens, if and only if no
    result that the handler is answered lacks one;
  * `login_asks` -- a login with both fields is one question to Cognito.
-/
import BlogDemo.Lambda.Auth

namespace Tokens

open Js Atomic Cognito Auth

/-! ## 1. The service, and what is reported -/

/-- What Cognito answers each command. -/
abbrev Service := Command → Except Error Output

/-- The calls that a handler makes. -/
def calls (service : Service) (h : Handler) : List (Made Command Answer) :=
  (h.run (fun c u => (service c, u)) ()).1

/-- Its response. -/
def answer (service : Service) (h : Handler) : Response :=
  (h.run (fun c u => (service c, u)) ()).2.1

/-- A success, or a refresh token in the cookie. -/
def Reported (r : Response) : Prop := r.statusCode = 200 ∨ r.setCookie ≠ none

/-- An access token and an id token. -/
def CarriesTokens (out : Output) : Prop :=
  ∃ result, out.authenticationResult = some result ∧ result.accessToken ≠ none ∧
    result.idToken ≠ none

/-- A refresh token besides. -/
def CarriesLogin (out : Output) : Prop :=
  ∃ result, out.authenticationResult = some result ∧ result.accessToken ≠ none ∧
    result.idToken ≠ none ∧ result.refreshToken ≠ none

section Handler

variable (carries : Output → Prop) (service : Service) (h : Handler)

/-- Some call of the handler was answered with tokens. -/
def Backed : Prop := ∃ m ∈ calls service h, ∃ out, m.res = .ok out ∧ carries out

/-- Every call that was answered a result was answered with tokens. -/
def Complete : Prop := ∀ m ∈ calls service h, ∀ out, m.res = .ok out → carries out

/-- **The handler reports a success only if it was answered with tokens.** -/
def ReportsBacked : Prop := Reported (answer service h) → Backed carries service h

end Handler

/-! ## 2. The two handlers -/

/-- **A handler of one call at most**, which reports a success if and only if its call does not
    throw. -/
inductive OneCall : Handler → Prop where
  | none (r : Response) (hr : ¬ Reported r) : OneCall (.ret r)
  | call (c : Command) (next : Answer c → Handler)
      (hok : ∀ out, ∃ r, next (.ok out) = .ret r ∧ Reported r)
      (herror : ∀ e, ∃ r, next (.error e) = .ret r ∧ ¬ Reported r) : OneCall (.call c next)

theorem OneCall.iff {carries : Output → Prop} {service : Service} {h : Handler} (hone : OneCall h) :
    ReportsBacked carries service h ↔ Complete carries service h := by
  cases hone with
  | none r hr => exact iff_of_true (fun hrep => absurd hrep hr) (fun m hm => by cases hm)
  | call c next hok herror =>
    cases hout : service c with
    | error e =>
      obtain ⟨r, hr, hnot⟩ := herror e
      have hanswer : answer service (.call c next) = r := by simp [answer, hout, hr]
      have hcalls : calls service (.call c next) = [⟨c, .error e⟩] := by simp [calls, hout, hr]
      refine iff_of_true (fun hrep => absurd hrep (hanswer ▸ hnot)) fun m hm out hres => ?_
      rw [hcalls, List.mem_singleton] at hm
      subst hm
      cases hres
    | ok out =>
      obtain ⟨r, hr, hrep⟩ := hok out
      have hanswer : answer service (.call c next) = r := by simp [answer, hout, hr]
      have hcalls : calls service (.call c next) = [⟨c, .ok out⟩] := by simp [calls, hout, hr]
      constructor
      · intro hbacked m hm out' hres
        obtain ⟨m', hm', out'', hres', hcarries⟩ := hbacked (hanswer ▸ hrep)
        rw [hcalls, List.mem_singleton] at hm hm'
        subst hm hm'
        cases hres
        cases hres'
        exact hcarries
      · intro hcomplete _
        have hmem : (⟨c, .ok out⟩ : Made Command Answer) ∈ calls service (.call c next) := by
          rw [hcalls]
          exact List.mem_singleton_self _
        exact ⟨_, hmem, out, rfl, hcomplete _ hmem out rfl⟩

theorem error_not_reported {err : Lambda.HTTPError} (code : String) (h : err.statusCode ≠ 200) :
    ¬ Reported (Auth.error err code) := by
  intro hrep
  rcases hrep with hstatus | hcookie
  · exact h hstatus
  · exact hcookie rfl

theorem loginError_not_reported (e : Error) : ¬ Reported (loginError e) := by
  unfold loginError
  repeat' split
  all_goals exact error_not_reported _ nofun

theorem refreshError_not_reported (e : Error) : ¬ Reported (refreshError e) := by
  unfold refreshError
  repeat' split
  all_goals exact error_not_reported _ nofun

/-- What login.ts answers a result with. -/
def loginResponse (out : Output) : Response :=
  ⟨200, some (refreshCookie
      ((out.authenticationResult.bind (·.refreshToken)).getD "undefined") (30 * 24 * 60 * 60)),
    object [("accessToken", (out.authenticationResult.bind (·.accessToken)).map .str),
      ("idToken", (out.authenticationResult.bind (·.idToken)).map .str)]⟩

/-- A login is refused at once, or it is one command. -/
theorem login_cases (event : Event) :
    (∃ r, Auth.login event = .ret r ∧ ¬ Reported r) ∨
      ∃ c next, Auth.login event = .call c next ∧
        (∀ out, next (.ok out) = .ret (loginResponse out)) ∧
        ∀ e, next (.error e) = .ret (loginError e) := by
  unfold Auth.login
  cases parse (event.body.getD (.json (.obj []))) with
  | error e => exact Or.inl ⟨_, rfl, loginError_not_reported e⟩
  | ok data =>
    cases hdata : destructure "username" data with
    | error e =>
      simp only [hdata, Prog.catching_lift]
      exact Or.inl ⟨_, rfl, loginError_not_reported e⟩
    | ok data =>
      simp only [hdata, Prog.catching_lift, Prog.catching_ite, catching_client]
      split
      · exact Or.inl ⟨_, rfl, error_not_reported _ (by decide)⟩
      · exact Or.inr ⟨_, _, rfl, fun out => rfl, fun e => rfl⟩

theorem login_oneCall (event : Event) : OneCall (Auth.login event) := by
  rcases login_cases event with ⟨r, hlogin, hr⟩ | ⟨c, next, hlogin, hok, herror⟩
  · rw [hlogin]
    exact .none r hr
  · rw [hlogin]
    exact .call c next (fun out => ⟨_, hok out, Or.inl rfl⟩)
      fun e => ⟨_, herror e, loginError_not_reported e⟩

theorem refresh_oneCall (event : Event) : OneCall (Auth.refresh event) := by
  unfold Auth.refresh
  simp only [Prog.catching_ite, catching_client]
  split
  · exact .none _ (error_not_reported _ (by decide))
  · exact .call _ _ (fun out => ⟨_, rfl, Or.inl rfl⟩) fun e => ⟨_, rfl, refreshError_not_reported e⟩

theorem login_iff (service : Service) (event : Event) :
    ReportsBacked CarriesLogin service (Auth.login event) ↔
      Complete CarriesLogin service (Auth.login event) := (login_oneCall event).iff

theorem refresh_iff (service : Service) (event : Event) :
    ReportsBacked CarriesTokens service (Auth.refresh event) ↔
      Complete CarriesTokens service (Auth.refresh event) := (refresh_oneCall event).iff

/-! ## 3. A login, field by field -/

/-- The body of a login. -/
def loginBody (username password : String) : Option Text :=
  some (.json (.obj [("username", .str username), ("password", .str password)]))

section Fields

variable {event : Event} {username password : String}

/-- A login without a user name or a password is refused. -/
theorem login_refused (hbody : event.body = loginBody username password)
    (h : username = "" ∨ password = "") :
    Auth.login event =
      .ret (Auth.error (Lambda.badRequest (Lambda.required ["username", "password"]))
        "ERR_LOGIN_BAD_REQUEST") := by
  have hmissing : (!truthy (some (.str username)) || !truthy (some (.str password))) = true := by
    rcases h with rfl | rfl
    · rfl
    · simp [truthy]
  unfold Auth.login
  rw [hbody]
  show Prog.catching (ε := Error) (if (!truthy (some (.str username)) ||
    !truthy (some (.str password))) = true then _ else _) loginError = _
  rw [hmissing]
  rfl

/-- Any other login is one question to Cognito. -/
theorem login_asks (hbody : event.body = loginBody username password) (hu : username ≠ "")
    (hp : password ≠ "") :
    ∃ next, Auth.login event = .call (.passwordAuth (.str username) (.str password)) next ∧
      (∀ out, next (.ok out) = .ret (loginResponse out)) ∧
      ∀ e, next (.error e) = .ret (loginError e) := by
  have hpresent : (!truthy (some (.str username)) || !truthy (some (.str password))) = false := by
    simp [truthy, hu, hp]
  unfold Auth.login
  rw [hbody]
  show ∃ next, Prog.catching (ε := Error) (if (!truthy (some (.str username)) ||
      !truthy (some (.str password))) = true then _
    else send (.passwordAuth (.str username) (.str password)) >>= fun out =>
      pure (loginResponse out)) loginError = _ ∧ _
  rw [hpresent, if_neg Bool.false_ne_true, catching_client]
  exact ⟨_, rfl, fun out => rfl, fun e => rfl⟩

end Fields

end Tokens
