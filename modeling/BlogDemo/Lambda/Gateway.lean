/-
  File:      BlogDemo/Lambda/Gateway.lean
  Subject:   THE HTTP API IN FRONT OF THE HANDLERS (backend/serverless.yaml): which handler a request
             goes to, and the JWT authorizer.

  A URL is its path under the address of the API. The routes of the posts answer what they answer
  (`Decision.post`); they use no token and set no cookie.

  * `handle` -- a request, with the cookie it carries, and the pool;
  * `Grantable` -- the requests that can be answered with a token or a user's name;
    **`granted`** -- an answer of success to one of these was to such a request.
-/
import BlogDemo.Lambda.Auth

namespace Gateway

open Js Cognito Auth

/-! ## 1. Requests and responses -/

structure HttpRequest where
  url : String
  method : String
  headers : Attrs String
  /-- `credentials: 'include'` -/
  credentials : Bool
  body : Option Text

structure HttpResponse where
  /-- The URL of the request. -/
  url : String
  status : Nat
  setCookie : Option SetCookie
  body : Text

/-- `response.ok` -/
def HttpResponse.ok (r : HttpResponse) : Bool := 200 ≤ r.status && r.status ≤ 299

/-- What is decided elsewhere: in the pool, in the gateway when it does not reach a handler, and in
    the handlers of the posts. -/
structure Decision where
  cognito : Cognito.Decision
  unavailable : Option { status : Nat // ¬ (200 ≤ status ∧ status ≤ 299) } := none
  post : Nat × Text := (200, .json .null)

/-! ## 2. Routes -/

def eventOf (req : HttpRequest) (cookie : Option String) : Event where
  headers := req.headers
  cookies := (cookie.map ("refreshToken=" ++ ·)).toList
  body := req.body

/-- The token of the `Authorization` header, with or without `Bearer`. -/
def identity (req : HttpRequest) : Option String :=
  (req.headers "authorization").map fun h => (bearer (some h)).getD h

/-- `cognitoAuthorizer`: an access token of the pool that has not expired. -/
def authorizes (p : Pool) (req : HttpRequest) : Bool :=
  match (identity req).bind p.access with
  | some x => !x.expired
  | none => false

def respond (req : HttpRequest) (r : Response × Pool) : HttpResponse × Pool :=
  (⟨req.url, r.1.statusCode, r.1.setCookie, .json r.1.body⟩, r.2)

def unauthorized (req : HttpRequest) : HttpResponse :=
  ⟨req.url, 401, none, .json (.obj [("message", .str "Unauthorized")])⟩

/-- **A request**, with the refresh token of the cookie it carries. -/
def handle (d : Decision) (req : HttpRequest) (cookie : Option String) (p : Pool) :
    HttpResponse × Pool :=
  let event := eventOf req cookie
  match d.unavailable with
  | some status => (⟨req.url, status, none, .malformed "Service Unavailable"⟩, p)
  | none =>
    if req.method = "POST" ∧ req.url = "/auth/login" then
      respond req (serve (login event) d.cognito p)
    else if req.method = "POST" ∧ req.url = "/auth/refresh" then
      respond req (serve (refresh event) d.cognito p)
    else if req.method = "POST" ∧ req.url = "/auth/logout" then
      respond req (serve (logout event) d.cognito p)
    else if req.method = "GET" ∧ req.url = "/myinfo" then
      if authorizes p req then respond req (serve (myInfo event) d.cognito p)
      else (unauthorized req, p)
    else if startsWith req.url "/posts" then
      if authorizes p req then (⟨req.url, d.post.1, none, d.post.2⟩, p) else (unauthorized req, p)
    else (⟨req.url, 404, none, .json (.obj [("message", .str "Not Found")])⟩, p)

/-! ## 3. What an answer says -/

section Answers

variable {d : Decision} {req : HttpRequest} {cookie : Option String} {p : Pool}

theorem handle_url : (handle d req cookie p).1.url = req.url := by
  unfold handle
  dsimp only
  repeat' split
  all_goals rfl

theorem handle_le : p.Le (handle d req cookie p).2 := by
  unfold handle
  dsimp only
  repeat' split
  all_goals first
    | exact .refl p
    | exact serve_le _ _ _

/-- A response that can make the frontend take over a token or a user's name. -/
def HttpResponse.Grants (r : HttpResponse) : Prop :=
  r.ok = true ∧ (r.url = "/auth/login" ∨ r.url = "/auth/refresh" ∨ r.url = "/myinfo")

/-- **The requests that can be answered so**: a login with the password of the account, a refresh with
    a refresh token that is good, a question for the user with an access token that is good. -/
inductive Grantable (p : Pool) (req : HttpRequest) (cookie : Option String) : Prop where
  | login (data : Json) (user password : String) (hurl : req.url = "/auth/login")
      (hbody : req.body = some (.json data)) (huser : data.get? "username" = some (.str user))
      (hword : data.get? "password" = some (.str password)) (h : p.password user = some password)
  | refresh (token user : String) (hurl : req.url = "/auth/refresh")
      (hcookie : refreshTokenOf (eventOf req cookie).cookies = some token)
      (h : p.refreshes token = some user)
  | myInfo (token : String) (hurl : req.url = "/myinfo")
      (hheader : bearer (authHeader (eventOf req cookie)) = some token)
      (h : p.userOf token ≠ none)

/-- What a response hands out. -/
structure HandsOut (p' : Pool) (req : HttpRequest) (r : HttpResponse) : Prop where
  login : r.ok = true → r.url = "/auth/login" → ∃ data body user token, req.body = some (.json data) ∧
    data.get? "username" = some (.str user) ∧ r.body = .json body ∧
    body.get? "accessToken" = some (.str token) ∧ isToken token = true ∧ p'.Issued token user
  refresh : r.ok = true → r.url = "/auth/refresh" → ∃ body user token, r.body = .json body ∧
    body.get? "accessToken" = some (.str token) ∧ isToken token = true ∧ p'.Issued token user
  myInfo : r.ok = true → r.url = "/myinfo" → ∃ body user, r.body = .json body ∧
    body.get? "username" = some (.str user)
  cookie : ∀ c ∈ r.setCookie, c.maxAge = 0 ∨
    r.Grants ∧ isToken c.value = true ∧ p'.refresh c.value ≠ none

theorem unavailable_not_ok {status : { status : Nat // ¬ (200 ≤ status ∧ status ≤ 299) }}
    {url : String} {c : Option SetCookie} {body : Text} :
    (HttpResponse.ok ⟨url, status, c, body⟩) = false := by
  have h := status.2
  simp only [HttpResponse.ok, Bool.and_eq_false_iff, decide_eq_false_iff_not]
  omega

/-- Where a response comes from. -/
inductive Answered (d : Decision) (req : HttpRequest) (cookie : Option String) (p : Pool) :
    HttpResponse × Pool → Prop where
  | failed (r : HttpResponse) (hok : r.ok = false) (hcookie : r.setCookie = none) :
      Answered d req cookie p (r, p)
  | login (hurl : req.url = "/auth/login") :
      Answered d req cookie p (respond req (serve (Auth.login (eventOf req cookie)) d.cognito p))
  | refresh (hurl : req.url = "/auth/refresh") :
      Answered d req cookie p (respond req (serve (Auth.refresh (eventOf req cookie)) d.cognito p))
  | logout (hurl : req.url = "/auth/logout") :
      Answered d req cookie p (respond req (serve (Auth.logout (eventOf req cookie)) d.cognito p))
  | myInfo (hurl : req.url = "/myinfo") :
      Answered d req cookie p (respond req (serve (Auth.myInfo (eventOf req cookie)) d.cognito p))
  | post (hurl : startsWith req.url "/posts" = true) :
      Answered d req cookie p (⟨req.url, d.post.1, none, d.post.2⟩, p)

theorem handle_answered (d : Decision) (req : HttpRequest) (cookie : Option String) (p : Pool) :
    Answered d req cookie p (handle d req cookie p) := by
  unfold handle
  split
  · exact .failed _ unavailable_not_ok rfl
  · split
    · rename_i h
      exact .login h.2
    · split
      · rename_i h
        exact .refresh h.2
      · split
        · rename_i h
          exact .logout h.2
        · split
          · rename_i h
            split
            · exact .myInfo h.2
            · exact .failed _ rfl rfl
          · split
            · rename_i h
              split
              · exact .post h
              · exact .failed _ rfl rfl
            · exact .failed _ rfl rfl

/-- A post's URL is none of those that hand out something. -/
theorem post_url {url : String} (h : startsWith url "/posts" = true) :
    url ≠ "/auth/login" ∧ url ≠ "/auth/refresh" ∧ url ≠ "/myinfo" := by
  refine ⟨?_, ?_, ?_⟩
  all_goals
    intro heq
    subst heq
    revert h
    decide

theorem granted (h : (handle d req cookie p).1.Grants) : Grantable p req cookie := by
  obtain ⟨hok, hurls⟩ := h
  have hanswered := handle_answered d req cookie p
  generalize handle d req cookie p = r at hok hurls hanswered
  cases hanswered with
  | failed r hno =>
      rw [hno] at hok
      cases hok
  | login hurl =>
      have hserve : (serve (Auth.login (eventOf req cookie)) d.cognito p).1.ok = true := hok
      obtain ⟨u, w, hlogin⟩ := login_ok hserve
      obtain ⟨data, hbody, huser, hword⟩ := hlogin.body
      exact .login data u w hurl hbody huser hword hlogin.password
  | refresh hurl =>
      have hserve : (serve (Auth.refresh (eventOf req cookie)) d.cognito p).1.ok = true := hok
      obtain ⟨token, user, hcookie, hgood, _⟩ := refresh_ok hserve
      exact .refresh token user hurl hcookie hgood
  | logout hurl =>
      have hno : ∀ url : String, url = "/auth/logout" →
          ¬ (url = "/auth/login" ∨ url = "/auth/refresh" ∨ url = "/myinfo") := by
        rintro _ rfl
        decide
      exact absurd hurls (hno _ hurl)
  | myInfo hurl =>
      have hserve : (serve (Auth.myInfo (eventOf req cookie)) d.cognito p).1.ok = true := hok
      obtain ⟨token, user, hheader, hgood, _⟩ := myInfo_ok hserve
      exact .myInfo token hurl hheader (by simp [hgood])
  | post hurl =>
      obtain ⟨h1, h2, h3⟩ := post_url hurl
      rcases hurls with h | h | h
      · exact absurd h h1
      · exact absurd h h2
      · exact absurd h h3

theorem handsOut (d : Decision) (req : HttpRequest) (cookie : Option String) (p : Pool) :
    HandsOut (handle d req cookie p).2 req (handle d req cookie p).1 := by
  have hanswered := handle_answered d req cookie p
  generalize handle d req cookie p = r at hanswered
  cases hanswered with
  | failed r hno hcookie =>
      refine ⟨fun hok => ?_, fun hok => ?_, fun hok => ?_, fun c hc => ?_⟩
      · rw [hno] at hok
        cases hok
      · rw [hno] at hok
        cases hok
      · rw [hno] at hok
        cases hok
      · rw [hcookie] at hc
        cases hc
  | login hurl =>
      have hother : (respond req (serve (Auth.login (eventOf req cookie)) d.cognito p)).1.url ≠
          "/auth/refresh" := fun h => absurd (hurl.symm.trans h) (by decide)
      refine ⟨fun hok _ => ?_, fun _ h => absurd h hother,
        fun _ h => absurd (hurl.symm.trans h) (by decide), fun c hc => ?_⟩
      · have hserve : (serve (Auth.login (eventOf req cookie)) d.cognito p).1.ok = true := hok
        obtain ⟨u, w, hlogin⟩ := login_ok hserve
        obtain ⟨data, hbody, huser, _⟩ := hlogin.body
        refine ⟨data, _, u, d.cognito.access, hbody, huser, rfl, hlogin.access,
          (fresh_access hlogin.tokens.1).1, ?_⟩
        show (serve (Auth.login (eventOf req cookie)) d.cognito p).2.Issued _ u
        rw [hlogin.pool]
        exact issueAccess_issued p _ u
      · rcases login_cookie (eventOf req cookie) d.cognito p with hok | hno
        · obtain ⟨u, w, hlogin⟩ := login_ok hok
          have hvalue : c.value = d.cognito.refresh := by
            have hsome := hlogin.cookie.symm.trans hc
            cases hsome
            rfl
          refine Or.inr ⟨⟨hok, Or.inl hurl⟩, ?_, ?_⟩
          · rw [hvalue]
            exact (fresh_refresh hlogin.tokens.2).1
          · show (serve (Auth.login (eventOf req cookie)) d.cognito p).2.refresh c.value ≠ none
            rw [hlogin.pool, hvalue]
            exact issueRefresh_known _ _ u
        · exact Or.inl (hno c hc)
  | refresh hurl =>
      have hother : (respond req (serve (Auth.refresh (eventOf req cookie)) d.cognito p)).1.url ≠
          "/auth/login" := fun h => absurd (hurl.symm.trans h) (by decide)
      refine ⟨fun _ h => absurd h hother, fun hok _ => ?_,
        fun _ h => absurd (hurl.symm.trans h) (by decide), fun c hc => ?_⟩
      · have hserve : (serve (Auth.refresh (eventOf req cookie)) d.cognito p).1.ok = true := hok
        obtain ⟨token, user, _, _, haccess, hfresh, hpool⟩ := refresh_ok hserve
        refine ⟨_, user, d.cognito.access, rfl, haccess, (fresh_access hfresh).1, ?_⟩
        show (serve (Auth.refresh (eventOf req cookie)) d.cognito p).2.Issued _ user
        rw [hpool]
        exact issueAccess_issued p _ user
      · exact Or.inl (refresh_cookie _ _ _ c hc)
  | logout hurl =>
      refine ⟨fun _ h => absurd (hurl.symm.trans h) (by decide),
        fun _ h => absurd (hurl.symm.trans h) (by decide),
        fun _ h => absurd (hurl.symm.trans h) (by decide),
        fun c hc => Or.inl (logout_cookie _ _ _ c hc)⟩
  | myInfo hurl =>
      refine ⟨fun _ h => absurd (hurl.symm.trans h) (by decide),
        fun _ h => absurd (hurl.symm.trans h) (by decide), fun hok _ => ?_,
        fun c hc => Or.inl (myInfo_cookie _ _ _ c hc)⟩
      have hserve : (serve (Auth.myInfo (eventOf req cookie)) d.cognito p).1.ok = true := hok
      obtain ⟨_, u, _, _, hinfo⟩ := myInfo_ok hserve
      obtain ⟨user, huser⟩ := infoOf_username u (p.attributes u)
      exact ⟨_, user, rfl, hinfo ▸ huser⟩
  | post hurl =>
      obtain ⟨h1, h2, h3⟩ := post_url hurl
      exact ⟨fun _ h => absurd h h1, fun _ h => absurd h h2, fun _ h => absurd h h3, nofun⟩

end Answers

end Gateway
