/-
  File:      BlogDemo/Frontend/Logout.lean
  Subject:   WHETHER A LOGOUT IS FINAL: what can make the access token or the user non-empty again,
             when no login is begun after it.

  The logout clears the variables whatever the backend answers it. It is the backend that revokes the
  tokens and deletes the cookie, and it does neither when the access token has expired.

  * `Quiet` -- the cookie is gone or refreshes nothing, and no request under way was or will be
    answered with a token or a user's name;
    **`logout_final`** -- after a logout that leaves the world so, the variables stay empty;
    `expiredLogout_not_final` -- a logout with an expired access token, and a reload of the page.
-/
import BlogDemo.Frontend.Browser
import Mathlib.Data.List.TakeWhile

namespace Frontend

open Js Atomic EventLoop Gateway Cognito Runs
open Auth (bearer authHeader refreshTokenOf)

variable {ι : Type} [DecidableEq ι]

/-! ## 1. What a request carries -/

theorem refreshTokenOf_cookie {t : String} (h : isToken t = true) (req : HttpRequest) :
    refreshTokenOf (eventOf req (some t)).cookies = some t := by
  have hall : ∀ c ∈ t.toList, (c != '=') = true := fun c hc => by
    have hchar := List.all_eq_true.mp (Bool.and_eq_true_iff.mp h).2 c hc
    refine bne_iff_ne.mpr ?_
    intro heq
    subst heq
    exact absurd hchar (by decide)
  have hfind : (eventOf req (some t)).cookies.find? (startsWith · "refreshToken=") =
      some ("refreshToken=" ++ t) := by
    simp [eventOf, startsWith_append]
  rw [refreshTokenOf, hfind, Option.map_some, slice_append, List.takeWhile_eq_self_iff.mpr hall,
    String.ofList_toList]

/-- A token is what it is in the header, too. -/
theorem bearerOf_token {t : String} (h : isToken t = true) :
    bearerOf (some (.str t)) = "Bearer " ++ t := by
  obtain ⟨hne, hall⟩ := Bool.and_eq_true_iff.mp h
  have hfirst : ("Bearer " ++ t).toList.dropWhile httpSpace = ("Bearer " ++ t).toList := by
    rw [String.toList_append]
    rfl
  have hlast : ("Bearer " ++ t).toList.reverse.dropWhile httpSpace =
      ("Bearer " ++ t).toList.reverse := by
    rw [String.toList_append, List.reverse_append]
    cases hrev : t.toList.reverse with
    | nil =>
        rw [List.reverse_eq_nil_iff, String.toList_eq_nil_iff] at hrev
        exact absurd hrev (bne_iff_ne.mp hne)
    | cons c cs =>
        have hchar : tokenChar c = true :=
          List.all_eq_true.mp hall c (List.mem_reverse.mp (hrev ▸ List.mem_cons_self))
        have hspace : httpSpace c = false := by
          by_contra hc
          simp only [httpSpace, Bool.not_eq_false, Bool.or_eq_true, beq_iff_eq] at hc
          rcases hc with ((rfl | rfl) | rfl) | rfl
          all_goals exact absurd hchar (by decide)
        rw [List.cons_append, List.dropWhile_cons_of_neg (by simp [hspace])]
  show headerValue ("Bearer " ++ t) = _
  rw [headerValue, hfirst, hlast, List.reverse_reverse, String.ofList_toList]

/-- The token a question for the user carries: the one it was sent with, if there was one. -/
theorem bearer_myInfo {t token : String} {cookie : Option String}
    (ht : t = "" ∨ isToken t = true)
    (h : bearer (authHeader (eventOf (authorized myInfoRequest (some (.str t))) cookie)) =
      some token) : isToken t = true ∧ token = t := by
  have hheader : authHeader (eventOf (authorized myInfoRequest (some (.str t))) cookie) =
      some (bearerOf (some (.str t))) := by
    simp [authHeader, eventOf, authorized, myInfoRequest, Attrs.absent]
  rw [hheader] at h
  rcases ht with rfl | ht
  · have hnone : bearer (some (bearerOf (some (.str "")))) = none := by decide
    rw [hnone] at h
    cases h
  · rw [bearerOf_token ht, bearer, if_pos (startsWith_append _ _), slice_append] at h
    exact ⟨ht, (Option.some.inj h).symm⟩

/-- A question for the user carries a token of the variables. -/
theorem Asked.myInfo {p : Pool} {k : Kind} {req : HttpRequest} (h : Asked p k req)
    (hurl : req.url = "/myinfo") :
    ∃ v, TokenKnown p v ∧ req = authorized myInfoRequest v := by
  obtain ⟨o, v, hv, hreq⟩ := h
  cases hreq with
  | login => exact absurd hurl (by simp [loginRequest])
  | refresh => exact absurd hurl (by decide)
  | logout => exact absurd hurl (by simp [logoutRequest])
  | myInfo => exact ⟨v.accessToken, hv, rfl⟩
  | post call => exact absurd hurl (post_url call.request_url).2.2

/-- **A request that can be answered with nothing now** cannot be later. -/
theorem Asked.spent {p p' : Pool} {k : Kind} {req : HttpRequest} {cookie : Option String}
    (hasked : Asked p k req) (hcookie : ∀ t ∈ cookie, CookieKnown p t) (hle : p.Le p')
    (h : ¬ Grantable p req cookie) : ¬ Grantable p' req cookie := by
  intro h'
  cases h' with
  | login data user password hurl hbody huser hword hp =>
      rw [hle.password] at hp
      exact h (.login data user password hurl hbody huser hword hp)
  | refresh token user hurl hheader hgood =>
      cases cookie with
      | none => cases hheader
      | some t =>
          obtain ⟨htoken, hknown⟩ := hcookie t rfl
          obtain rfl : t = token := by
            rw [refreshTokenOf_cookie htoken] at hheader
            exact Option.some.inj hheader
          cases hnow : p.refreshes t with
          | some u => exact h (.refresh t u hurl (refreshTokenOf_cookie htoken req) hnow)
          | none =>
              rw [refreshes_later hle hknown hnow] at hgood
              cases hgood
  | myInfo token hurl hheader hgood =>
      obtain ⟨_, ⟨t, rfl, ht⟩, rfl⟩ := hasked.myInfo hurl
      obtain ⟨htoken, rfl⟩ := bearer_myInfo (ht.imp_right And.left) hheader
      refine hgood (userOf_later hle ?_ ?_)
      · rcases ht with rfl | ⟨_, u, x, hx, _⟩
        · exact absurd htoken (by decide)
        · rw [hx]
          simp
      · by_contra hnow
        exact h (.myInfo token hurl hheader hnow)

/-! ## 2. Quiet worlds -/

/-- The task was not and will not be answered with a token or a user's name. -/
def Task.Spent (p : Pool) : Task → Prop
  | .fetching req (.sent cookie) _ => ¬ Grantable p req cookie
  | .fetching _ (.served res) _ => ¬ res.Grants
  | .fetching _ (.settled (.ok res)) _ => ¬ res.Grants
  | .reading res _ => ¬ res.Grants
  | _ => True

/-- **The cookie refreshes nothing**, and no request under way brings a token or a user's name. -/
structure Quiet (w : World ι) : Prop where
  jar : ∀ t ∈ w.jar, w.pool.refreshes t = none
  tasks : ∀ i, (w.tasks i).Spent w.pool

/-- The step begins no login. -/
def noLogin (kinds : ι → Kind) : Action ι → Bool
  | .begin i => match kinds i with
    | .login _ _ => false
    | _ => true
  | _ => true

/-- A block that begins no login, and with no response that grants something. -/
def OriginSpent (k : Kind) : Origin Wait.Out → Prop
  | .begun => ∀ user password, k ≠ .login user password
  | .answered (.fetch _) (.ok res) => ¬ res.Grants
  | .answered (.fetch _) (.error _) => True
  | .answered (.json res) _ => ¬ res.Grants

theorem writes_start {k : Kind} {o : Origin Wait.Out} {v' : Vars} (hw : Writes k o Vars.start v')
    (ho : OriginSpent k o) : v' = Vars.start := by
  cases hw with
  | keep => rfl
  | logout => rfl
  | login user password hk res data _ hok hurl => exact absurd ⟨hok, Or.inl hurl⟩ ho
  | refresh res data _ hok hurl => exact absurd ⟨hok, Or.inr (Or.inl hurl)⟩ ho
  | myInfo hk res data _ hok hurl => exact absurd ⟨hok, Or.inr (Or.inr hurl)⟩ ho

/-- A request that is sent while the variables are empty. -/
theorem awaits_spent {k : Kind} {o : Origin Wait.Out} {p : Pool} {req : HttpRequest}
    {jar : Option String} (ha : Awaits k o Vars.start (.fetch req)) (ho : OriginSpent k o)
    (hknown : ∀ t ∈ jar, CookieKnown p t) (hjar : ∀ t ∈ jar, p.refreshes t = none) :
    ¬ Grantable p req (if req.credentials then jar else none) := by
  intro h
  cases h with
  | login data user password hurl =>
      cases ha with
      | login u w hk => exact ho u w hk
      | refresh => exact absurd hurl (by decide)
      | logout => exact absurd hurl (by decide)
      | myInfo => exact absurd hurl (by decide)
      | post call => exact absurd hurl (post_url call.request_url).1
  | refresh token user hurl hheader hgood =>
      split at hheader
      · cases jar with
        | none => cases hheader
        | some t =>
            rw [refreshTokenOf_cookie (hknown t rfl).1] at hheader
            cases hheader
            rw [hjar token rfl] at hgood
            cases hgood
      · cases hheader
  | myInfo token hurl hheader =>
      cases ha with
      | login => exact absurd hurl (by simp [loginRequest])
      | refresh => exact absurd hurl (by decide)
      | logout => exact absurd hurl (by decide)
      | myInfo => exact absurd (bearer_myInfo (t := "") (Or.inl rfl) hheader).1 (by decide)
      | post call => exact absurd hurl (post_url call.request_url).2.2

variable {kinds : ι → Kind} {w w' : World ι}

omit [DecidableEq ι] in
/-- A quiet world is quiet with any later pool. -/
theorem Quiet.later (h : Quiet w) (hsound : Sound kinds w) {pool : Pool} (hle : w.pool.Le pool) :
    Quiet { w with pool := pool } := by
  refine ⟨fun t ht => refreshes_later hle (hsound.jar t ht).2 (h.jar t ht), fun i => ?_⟩
  have hi := h.tasks i
  have hsi := hsound.tasks i
  show (w.tasks i).Spent pool
  generalize w.tasks i = task at hi hsi
  match task with
  | .fetching req (.sent cookie) next => exact hsi.1.spent hsi.2.1 hle hi
  | .fetching _ (.served res) _ => exact hi
  | .fetching _ (.settled (.ok res)) _ => exact hi
  | .fetching _ (.settled (.error _)) _ => trivial
  | .reading res _ => exact hi
  | .idle => trivial
  | .ended => trivial

omit [DecidableEq ι] in
theorem quiet_of_quiescent (hjar : w.jar = none) (h : Quiescent w) : Quiet w := by
  refine ⟨fun t ht => ?_, fun i => ?_⟩
  · rw [hjar] at ht
    cases ht
  · have hi := h i
    generalize w.tasks i = task at hi ⊢
    cases task with
    | idle => trivial
    | ended => trivial
    | fetching req stage next => exact absurd trivial hi
    | reading res next => exact absurd trivial hi

theorem Quiet.put (h : Quiet w) {i : ι} {t : Task} (ht : t.Spent w.pool) : Quiet (w.put i t) := by
  refine ⟨h.jar, fun j => ?_⟩
  by_cases hj : j = i
  · subst hj
    simpa [World.put] using ht
  · simpa [World.put, hj] using h.tasks j

/-- **A block leaves empty variables and a quiet world as they are.** -/
theorem Quiet.run (h : Quiet w) (hvars : w.vars = Vars.start) (hsound : Sound kinds w) {i : ι}
    {o : Origin Wait.Out} {p : Flow (Except Error Unit)} (ho : OriginSpent (kinds i) o)
    (hp : Obeys access (contract (kinds i)) o w.vars p w.vars) :
    (w.run i p).vars = Vars.start ∧ Quiet (w.run i p) := by
  obtain ⟨hwrites, hrest⟩ := obeys_block hp
  rw [hvars] at hwrites hrest
  have hstart := writes_start hwrites ho
  refine ⟨by rw [← hstart, ← hvars]; rfl, ?_⟩
  have hw : Quiet { w with vars := (block access p w.vars).1 } := ⟨h.jar, h.tasks⟩
  refine hw.put ?_
  show Task.Spent w.pool _
  rw [hvars]
  generalize block access p Vars.start = b at hrest hstart
  obtain ⟨v, rest⟩ := b
  cases hstart
  match rest with
  | .ended r => trivial
  | .waiting (.fetch req) next => exact awaits_spent hrest.1 ho hsound.jar h.jar
  | .waiting (.json res) next =>
      obtain ⟨hawaits, _⟩ := hrest
      cases hawaits with
      | json req _ _ hok => exact ho

omit [DecidableEq ι] in
theorem Quiet.reload (h : Quiet w) : Quiet w.reload := by
  refine ⟨h.jar, fun i => ?_⟩
  simp only [World.reload]
  split <;> trivial

/-- What a spent response does to the cookie. -/
theorem spent_cookie {p : Pool} {req : HttpRequest} {res : HttpResponse} {jar : Option String}
    (h : HandsOut p req res) (hspent : ¬ res.Grants) (hjar : ∀ t ∈ jar, p.refreshes t = none) :
    ∀ t ∈ (if req.credentials then setCookie jar res.setCookie else jar), p.refreshes t = none := by
  intro t ht
  split at ht
  · cases hc : res.setCookie with
    | none =>
        rw [hc] at ht
        exact hjar t ht
    | some c =>
        rw [hc, setCookie] at ht
        rcases h.cookie c hc with hzero | ⟨hgrants, _⟩
        · rw [if_pos hzero] at ht
          cases ht
        · exact absurd hgrants hspent
  · exact hjar t ht

/-- **A step that begins no login** leaves empty variables and a quiet world as they are. -/
theorem step_quiet {a : Action ι} (hsound : Sound kinds w) (hvars : w.vars = Vars.start)
    (h : Quiet w) (hlogin : noLogin kinds a = true) (hs : w.step kinds a = some w') :
    w'.vars = Vars.start ∧ Quiet w' := by
  cases step_view hs with
  | load i hk ht =>
      have ho : OriginSpent (kinds i) .begun := fun u p heq => by
        rw [hk] at heq
        cases heq
      exact h.reload.run rfl hsound.reload ho (code_obeys _ _)
  | begin i hk ht =>
      have ho : OriginSpent (kinds i) .begun := fun u p heq => by
        rw [noLogin, heq] at hlogin
        cases hlogin
      exact h.run hvars hsound ho (code_obeys _ _)
  | serve i d req cookie next ht =>
      have hi := h.tasks i
      rw [ht] at hi
      have hle : w.pool.Le (handle d req cookie w.pool).2 := handle_le
      exact ⟨hvars, (h.later hsound hle).put fun hgrants => hi (granted hgrants)⟩
  | fail i e req stage next ht => exact ⟨hvars, h.put trivial⟩
  | receive i req res next ht =>
      have hi := h.tasks i
      have hsi := hsound.tasks i
      rw [ht] at hi hsi
      have hw : Quiet
          { w with jar := if req.credentials then setCookie w.jar res.setCookie else w.jar } :=
        ⟨spent_cookie hsi.2.1.2 hi h.jar, h.tasks⟩
      exact ⟨hvars, hw.put hi⟩
  | resume i req r next ht =>
      have hi := h.tasks i
      have hsi := hsound.tasks i
      rw [ht] at hi hsi
      obtain ⟨hasked, hres, hnext⟩ := hsi
      cases r with
      | error e =>
          exact h.run (o := .answered (.fetch req) (.error e)) hvars hsound trivial
            (hnext (.error e) nofun w.vars)
      | ok res =>
          refine h.run (o := .answered (.fetch req) (.ok res)) hvars hsound hi
            (hnext _ (fun res' hr => ?_) w.vars)
          cases hr
          exact hres.1
  | read i e res next ht =>
      have hi := h.tasks i
      have hsi := hsound.tasks i
      rw [ht] at hi hsi
      refine h.run (o := .answered (.json res) _) hvars hsound hi
        (hsi.2 _ (fun data hr => ?_) w.vars)
      cases e with
      | some e => cases hr
      | none => exact Auth.parse_ok hr
  | dropCookie => exact ⟨hvars, nofun, h.tasks⟩
  | command c d => exact ⟨hvars, h.later hsound (exec_le d c w.pool)⟩
  | expire token => exact ⟨hvars, h.later hsound (expire_le w.pool token)⟩
  | endRefresh token => exact ⟨hvars, h.later hsound (endRefresh_le w.pool token)⟩

/-! ## 3. After a logout -/

/-- The `fetch` of the task has resolved. -/
def Task.resolved : Task → Bool
  | .fetching _ (.settled (.ok _)) _ => true
  | _ => false

/-- The flow is a logout, and this step completes it. -/
def Completes (kinds : ι → Kind) (w : World ι) (i : ι) (w' : World ι) : Prop :=
  kinds i = .logout ∧ (w.tasks i).resolved = true ∧ w.step kinds (.resume i) = some w'

theorem completes_start {i : ι} (hsound : Sound kinds w) (h : Completes kinds w i w') :
    w'.vars = Vars.start := by
  obtain ⟨hk, hresolved, hs⟩ := h
  cases step_view hs with
  | resume i req r next ht =>
      have hi := hsound.tasks i
      rw [ht] at hi hresolved
      cases r with
      | error e => cases hresolved
      | ok res =>
          obtain ⟨hasked, hres, hnext⟩ := hi
          have hobeys := hnext (.ok res) (fun res' hr => by cases hr; exact hres.1) w.vars
          have hwrites := (obeys_block hobeys).1
          show (block access (next (.ok res)) w.vars).1 = _
          generalize (block access (next (.ok res)) w.vars).1 = v at hwrites
          cases hwrites with
          | keep _ _ hclears => exact absurd hk hclears
          | logout => rfl

/-- **After a logout that leaves the world quiet** the variables stay empty in every run that
    begins no login. -/
theorem logout_final (kinds : ι → Kind) (pool : Pool) (w w' w'' : World ι) (i : ι)
    (hreach : Run (World.step kinds) free (World.start pool) w) (hlogout : Completes kinds w i w')
    (hquiet : Quiet w')
    (hrest : Run (World.step kinds) (fun _ a => noLogin kinds a = true) w' w'') :
    w''.vars = Vars.start := by
  have hsound := run_sound hreach (start_sound pool)
  have hsound' := step_sound hsound hlogout.2.2
  suffices h : w''.vars = Vars.start ∧ Quiet w'' from h.1
  induction hrest with
  | start => exact ⟨completes_start hsound hlogout, hquiet⟩
  | step h hc hs ih => exact step_quiet (run_sound h hsound') ih.1 ih.2 hc hs

def threeFlows : Fin 3 → Kind
  | 0 => .login "alice" "apple"
  | 1 => .logout
  | 2 => .load

def aliceLogsIn : List (Action (Fin 3)) :=
  [.begin 0, .serve 0 (issue "a1" "r1"), .receive 0, .resume 0, .read 0 none]

/-- The logout, up to the answer of the backend. -/
def sheLogsOut : List (Action (Fin 3)) := [.begin 1, .serve 1 (issue "" ""), .receive 1]

/-- The page is loaded again. -/
def reloads : List (Action (Fin 3)) := [.load 2, .serve 2 (issue "a2" ""), .receive 2, .resume 2]

/-- What a logout of a good token leaves is quiet, and stays empty when the page is loaded again. -/
theorem logout_final_alice : ∃ w w' w'', Run (World.step threeFlows) free (World.start twoUsers) w ∧
    Completes threeFlows w 1 w' ∧ Quiet w' ∧
    Run (World.step threeFlows) (fun _ a => noLogin threeFlows a = true) w' w'' ∧
    w''.vars = Vars.start := by
  have hrun : (script (World.step threeFlows) (fun _ _ => true) (aliceLogsIn ++ sheLogsOut)
      (World.start twoUsers)).any (fun w => (w.tasks 1).resolved &&
        (w.step threeFlows (.resume 1)).any fun w' => w'.jar.isNone && decide (Quiescent w') &&
          (script (World.step threeFlows) (fun _ a => noLogin threeFlows a) reloads w').isSome) =
      true := by
    decide +kernel
  obtain ⟨w, hw, hrun⟩ := (Option.any_eq_true _ _).mp hrun
  obtain ⟨hresolved, hrun⟩ := Bool.and_eq_true_iff.mp hrun
  obtain ⟨w', hstep, hrun⟩ := (Option.any_eq_true _ _).mp hrun
  obtain ⟨hend, hrun⟩ := Bool.and_eq_true_iff.mp hrun
  obtain ⟨hjar, hquiescent⟩ := Bool.and_eq_true_iff.mp hend
  obtain ⟨w'', hw''⟩ := Option.isSome_iff_exists.mp hrun
  have hreach := script_free hw
  have hlogout : Completes threeFlows w 1 w' := ⟨rfl, hresolved, hstep⟩
  have hquiet :=
    quiet_of_quiescent (Option.isNone_iff_eq_none.mp hjar) (of_decide_eq_true hquiescent)
  have hrest := script_run .start hw''
  exact ⟨w, w', w'', hreach, hlogout, hquiet, hrest,
    logout_final threeFlows twoUsers w w' w'' 1 hreach hlogout hquiet hrest⟩

/-- After a logout with an expired token the cookie is there, and a reload brings Alice's token
    back. -/
theorem expiredLogout_not_final : ¬ ∀ (ι : Type) [DecidableEq ι] (kinds : ι → Kind) (pool : Pool)
    (w w' w'' : World ι) (i : ι), Run (World.step kinds) free (World.start pool) w →
    Completes kinds w i w' →
    Run (World.step kinds) (fun _ a => noLogin kinds a = true) w' w'' → w''.vars = Vars.start := by
  intro h
  have hrun : (script (World.step threeFlows) (fun _ _ => true)
      (aliceLogsIn ++ .expire "a1" :: sheLogsOut) (World.start twoUsers)).any (fun w =>
        (w.tasks 1).resolved &&
        (w.step threeFlows (.resume 1)).any fun w' =>
          (script (World.step threeFlows) (fun _ a => noLogin threeFlows a)
            (reloads ++ [.read 2 none]) w').any
            fun w'' => w''.vars = ⟨some (.str "a2"), empty⟩) = true := by
    decide +kernel
  obtain ⟨w, hw, hrun⟩ := (Option.any_eq_true _ _).mp hrun
  obtain ⟨hresolved, hrun⟩ := Bool.and_eq_true_iff.mp hrun
  obtain ⟨w', hstep, hrun⟩ := (Option.any_eq_true _ _).mp hrun
  obtain ⟨w'', hw'', hvars⟩ := (Option.any_eq_true _ _).mp hrun
  have hreach := script_free hw
  have hstart := h (Fin 3) threeFlows twoUsers w w' w'' 1 hreach ⟨rfl, hresolved, hstep⟩
    (script_run .start hw'')
  rw [of_decide_eq_true hvars] at hstart
  exact absurd hstart (by decide)

end Frontend
