/-
  File:      BlogDemo/Lambda/ErrorClasses.lean
  Subject:   WHICH CLASS OF STATUS AN ERROR IS ANSWERED: the nine handlers of the Lambda backend that
             parse a body or a token, over every event and every outcome of their AWS calls.

  Each handler has one `try`: what JSON.parse, the destructuring and the calls throw ends up in the
  same `catch`, which knows some exceptions by name and answers 500 to everything else.

  * `Handles` -- what a handler is made of, `handles` for each of the nine;
  * `Classified` -- 5xx only for a call that failed by no fault of the client, 400 for a bad body,
    4xx for what Cognito does not authorize;
  * **`classified_iff`** -- a run is classified so if and only if the body, where it is read, parses
    to something but null, and the handler knows every error of the client that a call failed with.
-/
import BlogDemo.Lambda.Signup

namespace ErrorClasses

open Js Atomic
open Prog (Stops)

/-! ## 1. The nine handlers -/

/-- What a handler reads of an event. -/
structure Event where
  id : Option String
  body : Option Text
  claims : Option Json
  headers : Attrs String
  cookies : List String

def Event.post (event : Event) : Lambda.Event := ⟨event.id, event.body, event.claims⟩

def Event.auth (event : Event) : Auth.Event := ⟨event.headers, event.cookies, event.body⟩

/-- A program over some AWS client, and the status of its responses. -/
structure Route where
  Op : Type
  Out : Op → Type
  Response : Type
  status : Response → Nat
  program : Event → Prog Op (fun op => Except Error (Out op)) Response

inductive Endpoint where
  | createPost (now : String)
  | updatePost
  | login
  | signup
  | confirmEmail
  | resendEmail
  | logout
  | refresh
  | myInfo

def Endpoint.route : Endpoint → Route
  | .createPost now => ⟨_, _, _, Lambda.Response.statusCode, fun e => Lambda.createPost now e.post⟩
  | .updatePost => ⟨_, _, _, Lambda.Response.statusCode, fun e => Lambda.updatePost e.post⟩
  | .login => ⟨_, _, _, Auth.Response.statusCode, fun e => Auth.login e.auth⟩
  | .signup => ⟨_, _, _, Auth.Response.statusCode, fun e => Signup.signup e.auth⟩
  | .confirmEmail => ⟨_, _, _, Auth.Response.statusCode, fun e => Signup.confirmEmail e.auth⟩
  | .resendEmail => ⟨_, _, _, Auth.Response.statusCode, fun e => Signup.resendEmail e.auth⟩
  | .logout => ⟨_, _, _, Auth.Response.statusCode, fun e => Auth.logout e.auth⟩
  | .refresh => ⟨_, _, _, Auth.Response.statusCode, fun e => Auth.refresh e.auth⟩
  | .myInfo => ⟨_, _, _, Auth.Response.statusCode, fun e => Auth.myInfo e.auth⟩

/-- The fields that the body must have; none for a handler that reads a token. -/
def Endpoint.required : Endpoint → List String
  | .createPost _ => ["title", "content"]
  | .updatePost => ["title", "content"]
  | .login => ["username", "password"]
  | .signup => ["username", "password", "email"]
  | .confirmEmail => ["username", "code"]
  | .resendEmail => ["username"]
  | _ => []

/-- The exceptions that the handler knows by name. -/
def Endpoint.known : Endpoint → List String
  | .createPost _ => []
  | .updatePost => []
  | .login => ["NotAuthorizedException", "UserNotConfirmedException",
      "PasswordResetRequiredException", "UserNotFoundException"]
  | .signup => Signup.signupBranches.map (·.exception)
  | .confirmEmail => Signup.confirmEmailBranches.map (·.exception)
  | .resendEmail => Signup.resendEmailBranches.map (·.exception)
  | .logout => []
  | .refresh => ["NotAuthorizedException", "InvalidParameterException", "UserNotFoundException"]
  | .myInfo => []

/-- `event.body ?? '{}'` -/
def Event.text (event : Event) : Text := event.body.getD (.json (.obj []))

/-- The body parses to an object with the fields. -/
def GoodBody (fields : List String) (text : Text) : Prop :=
  ∃ v, parse text = .ok v ∧ ∀ f ∈ fields, truthy (v.get? f) = true

/-- The body parses, and not to `null`. -/
def Readable (text : Text) : Prop := ∃ v, parse text = .ok v ∧ v ≠ .null

/-- The handler comes to its body: only updatePost asks for something else before. -/
def Endpoint.ReadsBody (e : Endpoint) (event : Event) : Prop :=
  e.required ≠ [] ∧ match e with
    | .updatePost => Lambda.missing event.id = false
    | _ => True

/-! ## 2. What a run is answered -/

/-- A call that failed, and its error. -/
def FailedWith {Op : Type} {Out : Op → Type} (m : Made Op fun op => Except Error (Out op))
    (err : Error) : Prop := m.res = .error err

/-- **The error classes of a run**, for what is attributable to the client. -/
structure Classified (client : Error → Prop) (e : Endpoint) (event : Event)
    (es : List (Made e.route.Op fun op => Except Error (e.route.Out op))) (status : Nat) : Prop where
  server : 500 ≤ status → ∃ m ∈ es, ∃ err, FailedWith m err ∧ ¬ client err
  body : e.required ≠ [] → ¬ GoodBody e.required event.text → status = 400
  token : ∀ m ∈ es, ∀ err, FailedWith m err → err.name = "NotAuthorizedException" →
    400 ≤ status ∧ status < 500

/-- The body is readable where it is read, and every error of the client is known by name. -/
structure Foreseen (client : Error → Prop) (e : Endpoint) (event : Event)
    (es : List (Made e.route.Op fun op => Except Error (e.route.Out op))) : Prop where
  body : e.ReadsBody event → Readable event.text
  known : ∀ m ∈ es, ∀ err, FailedWith m err → client err → err.name ∈ e.known

/-- What the `catch` of a handler does. -/
structure Catches {α : Type} (status : α → Nat) (handle : Error → α) (names : List String) :
    Prop where
  known : ∀ err, err.name ∈ names → 400 ≤ status (handle err) ∧ status (handle err) < 500
  other : ∀ err, err.name ∉ names → status (handle err) = 500

/-- **What a handler is made of**: a body that cannot be read is caught and not known, one that is
    incomplete is answered 400, and after it every call that fails is caught. -/
structure Handles (e : Endpoint) (event : Event) {Op : Type} {Out : Op → Type} {α : Type}
    (status : α → Nat) (program : Prog Op (fun op => Except Error (Out op)) α)
    (handle : Error → α) : Prop where
  catches : Catches status handle e.known
  unreadable : e.ReadsBody event → ¬ Readable event.text →
    ∃ err, err.name ∉ e.known ∧ program = .ret (handle err)
  incomplete : e.required ≠ [] → (e.ReadsBody event → Readable event.text) →
    ¬ GoodBody e.required event.text → ∃ r, program = .ret r ∧ status r = 400
  stops : (e.ReadsBody event → Readable event.text) → program.Stops handle fun r => status r < 500

/-! ## 3. What the shape of a handler gives -/

section Shape

variable {client : Error → Prop} {e : Endpoint} {event : Event}
  {handle : Error → e.route.Response}
  {E : Effect e.route.Op (fun op => Except Error (e.route.Out op)) Unit}
  {es : List (Made e.route.Op fun op => Except Error (e.route.Out op))} {r : e.route.Response}

theorem GoodBody.readable {fields : List String} {text : Text} (hne : fields ≠ [])
    (h : GoodBody fields text) : Readable text := by
  obtain ⟨v, hv, hfields⟩ := h
  obtain ⟨f, hf⟩ := List.exists_mem_of_ne_nil fields hne
  refine ⟨v, hv, ?_⟩
  intro heq
  subst heq
  exact absurd (hfields f hf) Bool.false_ne_true

/-- A body that cannot be read is answered 500. -/
theorem unreadable_iff (h : Handles e event e.route.status (e.route.program event) handle)
    (hreads : e.ReadsBody event) (hbad : ¬ Readable event.text)
    (hrun : Exec E (e.route.program event) () es r ()) :
    Classified client e event es (e.route.status r) ↔ Foreseen client e event es := by
  obtain ⟨err, hunknown, hprogram⟩ := h.unreadable hreads hbad
  rw [hprogram] at hrun
  obtain ⟨-, rfl, -⟩ := exec_ret hrun
  refine iff_of_false (fun hc => ?_) fun hf => hbad (hf.body hreads)
  have hstatus := hc.body hreads.1 fun hgood => hbad (hgood.readable hreads.1)
  rw [h.catches.other err hunknown] at hstatus
  cases hstatus

/-- An answer that is no server error, and is right for the body and for what was not authorized. -/
theorem classified_of_lt (hstatus : e.route.status r < 500)
    (hbody : e.required ≠ [] → ¬ GoodBody e.required event.text → e.route.status r = 400)
    (htoken : ∀ m ∈ es, ∀ err, FailedWith m err → 400 ≤ e.route.status r) :
    Classified client e event es (e.route.status r) where
  server h := absurd hstatus (Nat.not_lt.mpr h)
  body := hbody
  token m hm err herr _ := ⟨htoken m hm err herr, hstatus⟩

/-- **A handler of this shape** classifies a run if and only if it has foreseen it. -/
theorem shape_iff (hclient : ∀ err : Error, err.name = "NotAuthorizedException" → client err)
    (h : Handles e event e.route.status (e.route.program event) handle)
    (hrun : Exec E (e.route.program event) () es r ()) :
    Classified client e event es (e.route.status r) ↔ Foreseen client e event es := by
  by_cases hread : e.ReadsBody event → Readable event.text
  · have hbody : e.required ≠ [] → ¬ GoodBody e.required event.text → e.route.status r = 400 := by
      intro hne hbad
      obtain ⟨r', hprogram, hstatus⟩ := h.incomplete hne hread hbad
      rw [hprogram] at hrun
      obtain ⟨-, rfl, -⟩ := exec_ret hrun
      exact hstatus
    rcases hrun.stops (h.stops hread) with ⟨hok, hstatus⟩ | ⟨es', op, err, rfl, hok, rfl⟩
    · have hnone : ∀ m ∈ es, ∀ err, ¬ FailedWith m err := by
        intro m hm err herr
        obtain ⟨x, hx⟩ := hok m hm
        rw [FailedWith, hx] at herr
        cases herr
      exact iff_of_true (classified_of_lt hstatus hbody fun m hm err herr =>
        absurd herr (hnone m hm err)) ⟨hread, fun m hm err herr => absurd herr (hnone m hm err)⟩
    · -- the last call failed with `err`, and no other call did
      have honly : ∀ m ∈ es' ++ [⟨op, .error err⟩], ∀ err', FailedWith m err' → err' = err := by
        intro m hm err' herr
        rcases List.mem_append.mp hm with hm | hm
        · obtain ⟨x, hx⟩ := hok m hm
          rw [FailedWith, hx] at herr
          cases herr
        · rw [List.mem_singleton] at hm
          subst hm
          exact (Except.error.inj herr).symm
      have hlast : (⟨op, .error err⟩ : Made e.route.Op fun op => Except Error (e.route.Out op)) ∈
          es' ++ [⟨op, .error err⟩] := List.mem_append_right _ List.mem_cons_self
      by_cases hknown : err.name ∈ e.known
      · obtain ⟨hlow, hhigh⟩ := h.catches.known err hknown
        refine iff_of_true (classified_of_lt hhigh hbody fun _ _ _ _ => hlow) ⟨hread, ?_⟩
        intro m hm err' herr _
        rwa [honly m hm err' herr]
      · have hstatus := h.catches.other err hknown
        constructor
        · intro hc
          obtain ⟨m, hm, err', herr, hnot⟩ := hc.server (Nat.le_of_eq hstatus.symm)
          rw [honly m hm err' herr] at hnot
          refine ⟨hread, fun m' hm' err'' herr' hattr => ?_⟩
          rw [honly m' hm' err'' herr'] at hattr
          exact absurd hattr hnot
        · intro hf
          have hnot : ¬ client err := fun hattr => hknown (hf.known _ hlast err rfl hattr)
          refine ⟨fun _ => ⟨_, hlast, err, rfl, hnot⟩, hbody, fun m hm err' herr hname => ?_⟩
          rw [honly m hm err' herr] at hname
          exact absurd (hclient err hname) hnot
  · obtain ⟨hreads, hbad⟩ := Classical.not_imp.mp hread
    exact unreadable_iff h hreads hbad hrun

end Shape

/-! ## 4. The nine handlers have it -/

section Bodies

variable {text : Text}

theorem auth_text (event : Event) : event.auth.body.getD (.json (.obj [])) = event.text := rfl

theorem post_text (event : Event) : event.post.body.getD (.json (.obj [])) = event.text := rfl

/-- The names of what JSON.parse and the destructuring throw. -/
def parseErrors : List String := ["SyntaxError", "TypeError"]

theorem read_ok (key : String) (h : Readable text) :
    ∃ v, parse text = .ok v ∧ destructure key v = .ok v := by
  obtain ⟨v, hv, hne⟩ := h
  refine ⟨v, hv, ?_⟩
  cases v with
  | null => exact absurd rfl hne
  | _ => rfl

theorem read_error (key : String) (h : ¬ Readable text) : ∃ err, err.name ∈ parseErrors ∧
    (parse text = .error err ∨ ∃ v, parse text = .ok v ∧ destructure key v = .error err) := by
  cases text with
  | malformed message => exact ⟨_, List.mem_cons_self, Or.inl rfl⟩
  | json v =>
      by_cases hv : v = .null
      · subst hv
        exact ⟨_, List.mem_cons_of_mem _ List.mem_cons_self, Or.inr ⟨_, rfl, rfl⟩⟩
      · exact absurd ⟨v, rfl, hv⟩ h

/-- A field is missing from a body that is not good. -/
theorem missing_of_not_good {fields : List String} {v : Json} (hv : parse text = .ok v)
    (h : ¬ GoodBody fields text) : ∃ f ∈ fields, truthy (v.get? f) = false := by
  by_contra hnone
  refine h ⟨v, hv, fun f hf => ?_⟩
  by_contra hmissing
  exact hnone ⟨f, hf, Bool.not_eq_true _ ▸ hmissing⟩

end Bodies

section Email

open Signup

variable {fields : List String} {badCode message : String} {command : (String → Json) → Command}
  {handle : Error → Auth.Response} {event : Event}

/-- A branch for each exception that is known, all of them 400. -/
theorem caught_catches {branches : List Branch} {otherwise : String}
    (h : ∀ b ∈ branches, b.answer.statusCode = 400) :
    Catches Auth.Response.statusCode (caught branches otherwise) (branches.map (·.exception)) where
  known err herr := by
    obtain ⟨b, hb, hname⟩ := List.mem_map.mp herr
    unfold caught
    split
    · rename_i b' hfind
      have hstatus : (Auth.error b'.answer b'.code).statusCode = 400 :=
        h b' (List.mem_of_find?_eq_some hfind)
      rw [hstatus]
      exact ⟨Nat.le_refl 400, by decide⟩
    · rename_i hfind
      have hnone := List.find?_eq_none.mp hfind b hb
      exact absurd (decide_eq_true hname) hnone
  other err herr := by
    unfold caught
    split
    · rename_i b hfind
      have hname := List.find?_some hfind
      exact absurd (List.mem_map.mpr ⟨b, List.mem_of_find?_eq_some hfind, of_decide_eq_true hname⟩)
        herr
    · rfl

theorem emailHandler_unreadable {names : List String} (hnames : ∀ n ∈ parseErrors, n ∉ names)
    (h : ¬ Readable event.text) : ∃ err, err.name ∉ names ∧
      emailHandler fields badCode command message handle event.auth = .ret (handle err) := by
  obtain ⟨err, hname, herr⟩ := read_error "username" h
  refine ⟨err, hnames _ hname, ?_⟩
  rcases herr with hparse | ⟨v, hparse, hnull⟩
  · simp only [emailHandler, Prog.catching_lift, auth_text, hparse]
  · simp only [emailHandler, Prog.catching_lift, auth_text, hparse, hnull]

theorem emailHandler_incomplete (h : Readable event.text) (hbad : ¬ GoodBody fields event.text) :
    ∃ r, emailHandler fields badCode command message handle event.auth = .ret r ∧
      r.statusCode = 400 := by
  obtain ⟨v, hparse, hv⟩ := read_ok "username" h
  obtain ⟨f, hf, hmissing⟩ := missing_of_not_good hparse hbad
  have hany : (fields.any fun f => !truthy (v.get? f)) = true :=
    List.any_eq_true.mpr ⟨f, hf, by rw [hmissing]; rfl⟩
  refine ⟨Auth.error (Lambda.badRequest (Lambda.required fields)) badCode, ?_, rfl⟩
  simp only [emailHandler, Prog.catching_lift, auth_text, hparse, hv, hany, if_true,
    Prog.catching_pure]

theorem emailHandler_stops (h : Readable event.text) :
    (emailHandler fields badCode command message handle event.auth).Stops handle
      fun r => r.statusCode < 500 := by
  obtain ⟨v, hparse, hv⟩ := read_ok "username" h
  simp only [emailHandler, Prog.catching_lift, auth_text, hparse, hv, Prog.catching_ite,
    Prog.catching_pure, Prog.catching_send]
  split
  · exact (by decide : 400 < 500)
  · exact ⟨fun _ => rfl, fun _ => (by decide : 200 < 500)⟩

/-- Two fields that are not both there. -/
theorem pair_missing {f g : String} {v : Json}
    (h : ∃ k ∈ [f, g], truthy (v.get? k) = false) :
    (!truthy (v.get? f) || !truthy (v.get? g)) = true := by
  obtain ⟨k, hk, hmissing⟩ := h
  simp only [List.mem_cons, List.not_mem_nil, or_false] at hk
  rcases hk with rfl | rfl
  · rw [hmissing, Bool.not_false, Bool.true_or]
  · rw [hmissing, Bool.not_false, Bool.or_true]

theorem signup_handles (event : Event) :
    Handles .signup event Auth.Response.statusCode (signup event.auth)
      (caught signupBranches "ERR_SIGNUP_INTERNAL_SERVER_ERROR") where
  catches := caught_catches (by decide)
  unreadable _ hbad := emailHandler_unreadable (by decide) hbad
  incomplete _ hread hbad := emailHandler_incomplete (hread ⟨by decide, trivial⟩) hbad
  stops hread := emailHandler_stops (hread ⟨by decide, trivial⟩)

theorem confirmEmail_handles (event : Event) :
    Handles .confirmEmail event Auth.Response.statusCode (confirmEmail event.auth)
      (caught confirmEmailBranches "ERR_CONFIRM_EMAIL_INTERNAL_SERVER_ERROR") where
  catches := caught_catches (by decide)
  unreadable _ hbad := emailHandler_unreadable (by decide) hbad
  incomplete _ hread hbad := emailHandler_incomplete (hread ⟨by decide, trivial⟩) hbad
  stops hread := emailHandler_stops (hread ⟨by decide, trivial⟩)

theorem resendEmail_handles (event : Event) :
    Handles .resendEmail event Auth.Response.statusCode (resendEmail event.auth)
      (caught resendEmailBranches "ERR_RESEND_EMAIL_INTERNAL_SERVER_ERROR") where
  catches := caught_catches (by decide)
  unreadable _ hbad := emailHandler_unreadable (by decide) hbad
  incomplete _ hread hbad := emailHandler_incomplete (hread ⟨by decide, trivial⟩) hbad
  stops hread := emailHandler_stops (hread ⟨by decide, trivial⟩)

end Email

section Tokens

open Auth
open Lambda (badRequest unAuthorized internalServerError required)

theorem loginError_catches :
    Catches Response.statusCode loginError (Endpoint.known .login) where
  known err herr := by
    simp only [Endpoint.known, List.mem_cons, List.not_mem_nil, or_false] at herr
    rcases herr with h | h | h | h <;> simp [loginError, h, error, badRequest]
  other err herr := by
    simp only [Endpoint.known, List.mem_cons, List.not_mem_nil, or_false, not_or] at herr
    obtain ⟨h₁, h₂, h₃, h₄⟩ := herr
    simp [loginError, h₁, h₂, h₃, h₄, error, internalServerError]

theorem refreshError_catches :
    Catches Response.statusCode refreshError (Endpoint.known .refresh) where
  known err herr := by
    simp only [Endpoint.known, List.mem_cons, List.not_mem_nil, or_false] at herr
    rcases herr with h | h | h <;> simp [refreshError, h, error, unAuthorized]
  other err herr := by
    simp only [Endpoint.known, List.mem_cons, List.not_mem_nil, or_false, not_or] at herr
    obtain ⟨h₁, h₂, h₃⟩ := herr
    simp [refreshError, h₁, h₂, h₃, error, internalServerError]

/-- A `catch` that knows no exception. -/
theorem nothing_catches (code : String) : Catches Response.statusCode
    (fun err => error (internalServerError err.message) code) [] where
  known _ h := absurd h List.not_mem_nil
  other _ _ := rfl

/-- A handler that reads no body. -/
theorem Handles.of_token {e : Endpoint} {event : Event} {Op : Type} {Out : Op → Type} {α : Type}
    {status : α → Nat} {program : Prog Op (fun op => Except Error (Out op)) α}
    {handle : Error → α} (hnone : e.required = []) (hcatches : Catches status handle e.known)
    (hstops : program.Stops handle fun r => status r < 500) :
    Handles e event status program handle where
  catches := hcatches
  unreadable h := absurd hnone h.1
  incomplete h := absurd hnone h
  stops _ := hstops

theorem refresh_handles (event : Event) :
    Handles .refresh event Response.statusCode (refresh event.auth) refreshError := by
  refine .of_token rfl refreshError_catches ?_
  simp only [refresh, Prog.catching_ite, Prog.catching_pure, catching_client]
  split
  · exact (by decide : 401 < 500)
  · exact ⟨fun _ => rfl, fun _ => (by decide : 200 < 500)⟩

theorem logout_handles (event : Event) :
    Handles .logout event Response.statusCode (logout event.auth) fun err =>
      error (internalServerError err.message) "ERR_LOGOUT_INTERNAL_SERVER_ERROR" := by
  refine .of_token rfl (nothing_catches _) ?_
  unfold logout
  cases bearer (authHeader event.auth) with
  | none => exact (by decide : 401 < 500)
  | some token => exact ⟨fun _ => rfl, fun _ => (by decide : 200 < 500)⟩

theorem myInfo_handles (event : Event) :
    Handles .myInfo event Response.statusCode (myInfo event.auth) fun err =>
      error (internalServerError err.message) "ERR_GET_USER_INTERNAL_SERVER_ERROR" := by
  refine .of_token rfl (nothing_catches _) ?_
  unfold myInfo
  cases bearer (authHeader event.auth) with
  | none => exact (by decide : 401 < 500)
  | some token => exact ⟨fun _ => rfl, fun _ => (by decide : 200 < 500)⟩

theorem login_handles (event : Event) :
    Handles .login event Response.statusCode (login event.auth) loginError where
  catches := loginError_catches
  unreadable _ hbad := by
    obtain ⟨err, hname, herr⟩ := read_error "username" hbad
    refine ⟨err, ?_, ?_⟩
    · exact (by decide : ∀ n ∈ parseErrors, n ∉ Endpoint.known .login) _ hname
    · rcases herr with hparse | ⟨v, hparse, hnull⟩
      · simp only [login, Prog.catching_lift, auth_text, hparse]
      · simp only [login, Prog.catching_lift, auth_text, hparse, hnull]
  incomplete _ hread hbad := by
    obtain ⟨v, hparse, hv⟩ := read_ok "username" (hread ⟨by decide, trivial⟩)
    have hmissing := pair_missing (missing_of_not_good hparse hbad)
    refine ⟨error (badRequest (required ["username", "password"])) "ERR_LOGIN_BAD_REQUEST", ?_, rfl⟩
    simp only [login, Prog.catching_lift, auth_text, hparse, hv, hmissing, if_true,
      Prog.catching_pure]
  stops hread := by
    obtain ⟨v, hparse, hv⟩ := read_ok "username" (hread ⟨by decide, trivial⟩)
    simp only [login, Prog.catching_lift, auth_text, hparse, hv, Prog.catching_ite,
      Prog.catching_pure, catching_client]
    split
    · exact (by decide : 400 < 500)
    · exact ⟨fun _ => rfl, fun _ => (by decide : 200 < 500)⟩

end Tokens

section Posts

open Lambda

variable {event : Event}

/-- Everything a post handler throws is answered 500. -/
theorem posts_catch (code : String) : Catches Response.statusCode
    (fun err => error (internalServerError err.message) code) [] where
  known _ h := absurd h List.not_mem_nil
  other _ _ := rfl

theorem parseBody_unreadable (h : ¬ Readable event.text) :
    ∃ err, parseBody event.post = .error err := by
  obtain ⟨err, _, hparse | ⟨v, hparse, hnull⟩⟩ := read_error "title" h
  · exact ⟨err, by simp only [parseBody, post_text, hparse]⟩
  · exact ⟨err, by simp only [parseBody, post_text, hparse, hnull]⟩

theorem parseBody_ok (h : Readable event.text) :
    ∃ v, parse event.text = .ok v ∧ parseBody event.post = .ok v := by
  obtain ⟨v, hparse, hv⟩ := read_ok "title" h
  exact ⟨v, hparse, by simp only [parseBody, post_text, hparse, hv]⟩

theorem createPost_handles (now : String) (event : Event) :
    Handles (.createPost now) event Response.statusCode (createPost now event.post) fun err =>
      error (internalServerError err.message) "ERR_CREATE_POST_INTERNAL_SERVER_ERROR" where
  catches := posts_catch _
  unreadable _ hbad := by
    obtain ⟨err, herr⟩ := parseBody_unreadable hbad
    exact ⟨err, List.not_mem_nil, by simp only [createPost, Prog.catching_lift, herr]⟩
  incomplete _ hread hbad := by
    obtain ⟨v, hparse, hv⟩ := parseBody_ok (hread ⟨List.cons_ne_nil _ _, trivial⟩)
    have hmissing := pair_missing (missing_of_not_good hparse hbad)
    refine ⟨error (badRequest (required ["title", "content"])) "ERR_CREATE_POST_BAD_REQUEST",
      ?_, rfl⟩
    simp only [createPost, Prog.catching_lift, hv, hmissing, if_true, Prog.catching_pure]
  stops hread := by
    obtain ⟨v, hparse, hv⟩ := parseBody_ok (hread ⟨List.cons_ne_nil _ _, trivial⟩)
    simp only [createPost, getNextId, Lambda.send, Prog.catching_lift, hv, Prog.catching_ite,
      Prog.catching_pure, Prog.catching_send, bind_assoc, pure_bind]
    split
    · exact (by decide : 400 < 500)
    · rename_i htext
      split
      · exact (by decide : 401 < 500)
      · rename_i huser
        simp only [Bool.or_eq_true, Bool.not_eq_true', not_or, Bool.not_eq_false] at htext huser
        obtain ⟨title, htitle⟩ := truthy_isSome htext.1
        obtain ⟨content, hcontent⟩ := truthy_isSome htext.2
        obtain ⟨sub, hsub⟩ := truthy_isSome huser.1.2
        obtain ⟨userName, huserName⟩ := truthy_isSome huser.2
        -- nothing is undefined, so only the two calls can fail
        simp only [htitle, hcontent, hsub, huserName]
        exact ⟨fun _ => rfl, fun _ => ⟨fun _ => rfl, fun _ => (by decide : 201 < 500)⟩⟩

theorem updatePost_handles (event : Event) :
    Handles .updatePost event Response.statusCode (updatePost event.post) fun err =>
      error (internalServerError err.message) "ERR_UPDATE_POST_INTERNAL_SERVER_ERROR" where
  catches := posts_catch _
  unreadable hreads hbad := by
    obtain ⟨err, herr⟩ := parseBody_unreadable hbad
    have hid : missing event.post.id = false := hreads.2
    refine ⟨err, List.not_mem_nil, ?_⟩
    simp only [updatePost, Prog.catching_lift, hid, herr, Bool.false_eq_true, if_false]
  incomplete _ hread hbad := by
    cases hid : missing event.post.id with
    | true =>
        refine ⟨error (badRequest "Missing id parameter")
          "ERR_UPDATE_POST_BAD_REQUEST_MISSING_ID", ?_, rfl⟩
        simp only [updatePost, hid, if_true, Prog.catching_pure]
    | false =>
        obtain ⟨v, hparse, hv⟩ := parseBody_ok (hread ⟨by decide, hid⟩)
        have hmissing := pair_missing (missing_of_not_good hparse hbad)
        refine ⟨error (badRequest (required ["title", "content"])) "ERR_UPDATE_POST_BAD_REQUEST",
          ?_, rfl⟩
        simp only [updatePost, Prog.catching_lift, hid, hv, hmissing, if_true, Bool.false_eq_true,
          if_false, Prog.catching_pure]
  stops hread := by
    simp only [updatePost, Lambda.send, Prog.catching_ite, Prog.catching_lift, Prog.catching_pure,
      Prog.catching_send]
    split
    · exact (by decide : 400 < 500)
    · rename_i hid
      obtain ⟨v, hparse, hv⟩ := parseBody_ok (hread ⟨by decide, Bool.eq_false_iff.mpr hid⟩)
      simp only [hv]
      split
      · exact (by decide : 400 < 500)
      · rename_i htext
        split
        · exact (by decide : 401 < 500)
        · simp only [Bool.or_eq_true, Bool.not_eq_true', not_or, Bool.not_eq_false] at htext
          obtain ⟨title, htitle⟩ := truthy_isSome htext.1
          obtain ⟨content, hcontent⟩ := truthy_isSome htext.2
          simp only [htitle, hcontent]
          refine ⟨fun _ => rfl, fun result => ?_⟩
          obtain ⟨item | item, attributes⟩ := result
          · exact (by decide : 404 < 500)
          · cases hown : strictEq (item "userId") (event.post.claims.bind (·.get? "sub")) with
            | true =>
                simp only [hown, Prog.catching_ite, Prog.catching_pure]
                exact ⟨fun _ => rfl, fun _ => (by decide : 200 < 500)⟩
            | false =>
                simp only [hown, Prog.catching_ite, Prog.catching_pure]
                exact (by decide : 403 < 500)

end Posts

/-! ## 5. All of them -/

theorem endpoint_handles (e : Endpoint) (event : Event) :
    ∃ handle, Handles e event e.route.status (e.route.program event) handle := by
  cases e with
  | createPost now => exact ⟨_, createPost_handles now event⟩
  | updatePost => exact ⟨_, updatePost_handles event⟩
  | login => exact ⟨_, login_handles event⟩
  | signup => exact ⟨_, signup_handles event⟩
  | confirmEmail => exact ⟨_, confirmEmail_handles event⟩
  | resendEmail => exact ⟨_, resendEmail_handles event⟩
  | logout => exact ⟨_, logout_handles event⟩
  | refresh => exact ⟨_, refresh_handles event⟩
  | myInfo => exact ⟨_, myInfo_handles event⟩

/-- Every answer of a call is possible. -/
def anyAnswer {Op : Type} {Res : Op → Type} : Effect Op Res Unit := fun _ _ _ _ => True

/-- **The error classes of the nine handlers**: whatever the event is and whatever the calls are
    answered, a run is classified if and only if it is foreseen. -/
theorem classified_iff {client : Error → Prop}
    (hclient : ∀ err : Error, err.name = "NotAuthorizedException" → client err)
    (e : Endpoint) (event : Event)
    {es : List (Made e.route.Op fun op => Except Error (e.route.Out op))} {r : e.route.Response}
    (hrun : Exec anyAnswer (e.route.program event) () es r ()) :
    Classified client e event es (e.route.status r) ↔ Foreseen client e event es := by
  obtain ⟨handle, h⟩ := endpoint_handles e event
  exact shape_iff hclient h hrun

/-! ## 6. A token that Cognito does not accept, and a body that does not parse -/

/-- A request with a Bearer token, and nothing else. -/
def withToken : Event where
  id := none
  body := none
  claims := none
  headers := Attrs.of [("authorization", "Bearer expired")]
  cookies := []

/-- A request whose body is no JSON. -/
def withBody : Event := { withToken with body := some (.malformed "Unexpected end of JSON input") }

/-- What is not authorized is attributable to the client, and nothing else. -/
def unauthorizedOnly (err : Error) : Prop := err.name = "NotAuthorizedException"

/-- A logout that Cognito rejects. -/
def rejected : List (Made (Endpoint.route .logout).Op
    fun op => Except Error ((Endpoint.route .logout).Out op)) :=
  [⟨.globalSignOut "expired", .error ⟨"NotAuthorizedException", "Access Token has expired"⟩⟩]

theorem logout_rejected : ∃ r, Exec anyAnswer ((Endpoint.route .logout).program withToken) ()
    rejected r () ∧ (Endpoint.route .logout).status r = 500 := by
  have hbearer : Auth.bearer (Auth.authHeader withToken.auth) = some "expired" := by decide
  refine ⟨Auth.error (Lambda.internalServerError (some "Access Token has expired"))
    "ERR_LOGOUT_INTERNAL_SERVER_ERROR", ?_, rfl⟩
  show Exec anyAnswer (Auth.logout withToken.auth) () _ _ ()
  unfold Auth.logout
  rw [hbearer]
  exact .call trivial (.ret _ _)

theorem login_malformed : ∃ r, Exec anyAnswer ((Endpoint.route .login).program withBody) ()
    [] r () ∧ (Endpoint.route .login).status r = 500 :=
  ⟨_, .ret _ _, rfl⟩

/-- A rejected logout is not foreseen, so it is not classified. -/
theorem classified_iff_rejected : ∃ r, Exec anyAnswer ((Endpoint.route .logout).program withToken) ()
    rejected r () ∧ (Classified unauthorizedOnly .logout withToken rejected
      ((Endpoint.route .logout).status r) ↔ Foreseen unauthorizedOnly .logout withToken rejected) := by
  obtain ⟨r, hrun, _⟩ := logout_rejected
  exact ⟨r, hrun, classified_iff (fun _ h => h) .logout withToken hrun⟩

/-- The rejected logout is answered 500, and so is the login whose body does not parse. -/
theorem not_classified :
    (∃ r, Exec anyAnswer ((Endpoint.route .logout).program withToken) () rejected r () ∧
      ¬ Classified unauthorizedOnly .logout withToken rejected
        ((Endpoint.route .logout).status r)) ∧
    ∃ r, Exec anyAnswer ((Endpoint.route .login).program withBody) () [] r () ∧
      ¬ Classified unauthorizedOnly .login withBody [] ((Endpoint.route .login).status r) := by
  obtain ⟨r, hrun, hr⟩ := logout_rejected
  obtain ⟨r', hrun', hr'⟩ := login_malformed
  refine ⟨⟨r, hrun, fun h => ?_⟩, ⟨r', hrun', fun h => ?_⟩⟩
  · have hlow := (h.token _ List.mem_cons_self _ rfl rfl).2
    rw [hr] at hlow
    exact absurd hlow (by decide)
  · obtain ⟨m, hm, _⟩ := h.server (Nat.le_of_eq hr'.symm)
    exact List.not_mem_nil hm

end ErrorClasses
