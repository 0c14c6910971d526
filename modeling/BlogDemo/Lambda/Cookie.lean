/-
  File:      BlogDemo/Lambda/Cookie.lean
  Subject:   THE REFRESH TOKEN'S WAY THROUGH THE COOKIE: login.ts writes it into a `Set-Cookie` header,
             a browser keeps it and sends it among its other cookies, refresh.ts reads it, and
             logout.ts deletes it.

  refresh.ts takes what stands between the first and the second equals sign of the entry.

  * `refreshTokenOf_entries` -- what it reads of the entries a browser sends;
  * **`roundTrips_iff`** -- the token it passes to Cognito is the one that login was given, if and only
    if that is not empty and has no equals sign.
-/
import BlogDemo.Lambda.Tokens
import BlogDemo.Lib.Cookies

namespace RefreshCookie

open Js Atomic Cognito Auth Tokens Cookies

/-! ## 1. The header -/

/-- The text of the `Set-Cookie` header. -/
def header (c : SetCookie) : String :=
  c.name ++ "=" ++ c.value ++ (if c.httpOnly then "; HttpOnly" else "") ++ "; Path=" ++ c.path ++
    "; Max-Age=" ++ toString c.maxAge ++ "; SameSite=" ++ c.sameSite ++
    (if c.secure then "; Secure" else "")

/-- The header of logout.ts. -/
example : header (refreshCookie "" 0) =
    "refreshToken=; HttpOnly; Path=/; Max-Age=0; SameSite=None; Secure" := by decide

def name : List Char := "refreshToken".toList

theorem name_bounded : '=' ∉ name := by decide

/-- The cookie with this token. -/
def cookieOf (token : String) : Cookie := ⟨name, token.toList, name_bounded⟩

/-- The attributes after the value. -/
def attributes (maxAge : Nat) : List Char :=
  (" HttpOnly; Path=/; Max-Age=" ++ toString maxAge ++ "; SameSite=None; Secure").toList

theorem header_eq (token : String) (maxAge : Nat) :
    header (refreshCookie token maxAge) =
      String.ofList (name ++ '=' :: token.toList ++ ';' :: attributes maxAge) := by
  have hname : name = "refreshToken".toList := rfl
  have hequals : "=".toList = ['='] := rfl
  have hhttpOnly : "; HttpOnly".toList = ';' :: " HttpOnly".toList := rfl
  have hpath : " HttpOnly; Path=/; Max-Age=".toList =
      " HttpOnly".toList ++ ("; Path=".toList ++ ("/".toList ++ "; Max-Age=".toList)) := rfl
  have hend : "; SameSite=None; Secure".toList =
      "; SameSite=".toList ++ ("None".toList ++ "; Secure".toList) := rfl
  rw [← String.toList_inj, String.toList_ofList, attributes, hname]
  simp only [header, refreshCookie, if_true, String.toList_append, hequals, hhttpOnly, hpath, hend,
    List.append_assoc, List.cons_append, List.nil_append]

/-- **The cookie of a login is kept as it is.** -/
theorem stored_login {token : String} (h : ∀ c ∈ token.toList, octet c = true) :
    stored (header (refreshCookie token (30 * 24 * 60 * 60))) = some (cookieOf token) := by
  rw [header_eq, stored_append _ (by decide) name_bounded (List.all_eq_true.mp (by decide)) h]
  rfl

/-- The cookie of a logout is deleted. -/
theorem stored_logout : stored (header (refreshCookie "" 0)) = none := by
  rw [header_eq, stored_append _ (by decide) name_bounded (List.all_eq_true.mp (by decide)) (by simp)]
  rfl

/-! ## 2. What is read of the entries -/

theorem startsWith_entry (c : Cookie) :
    startsWith c.entry "refreshToken=" = true ↔ name = c.name := by
  rw [startsWith, List.isPrefixOf_iff_prefix]
  exact entry_prefix c name_bounded

/-- **What refresh.ts reads** of the entries a browser sends: up to an equals sign of the value. -/
theorem refreshTokenOf_entries {before after : List Cookie} (token : String)
    (hbefore : ∀ c ∈ before, name ≠ c.name) :
    refreshTokenOf ((before ++ cookieOf token :: after).map (·.entry)) =
      some (String.ofList (token.toList.takeWhile (· != '='))) := by
  have hskip : (before.map (·.entry)).find? (startsWith · "refreshToken=") = none := by
    rw [List.find?_eq_none]
    intro e he
    obtain ⟨c, hc, rfl⟩ := List.mem_map.mp he
    exact fun h => hbefore c hc ((startsWith_entry c).mp h)
  have hfound : startsWith (cookieOf token).entry "refreshToken=" = true :=
    (startsWith_entry _).mpr rfl
  have hentry : (cookieOf token).entry = "refreshToken=" ++ token := by
    have hprefix : "refreshToken=".toList = name ++ ['='] := rfl
    rw [← String.toList_inj, Cookie.entry, String.toList_ofList, String.toList_append, hprefix,
      List.append_assoc]
    rfl
  have hfind : (((cookieOf token).entry :: after.map (·.entry)).find?
      (startsWith · "refreshToken=")) = some (cookieOf token).entry := by
    rw [List.find?_cons, hfound]
  rw [refreshTokenOf, List.map_append, List.map_cons, List.find?_append, hskip, Option.none_or,
    hfind, Option.map_some, hentry, slice_append]

theorem refreshTokenOf_others {others : List Cookie} (h : ∀ c ∈ others, name ≠ c.name) :
    refreshTokenOf (others.map (·.entry)) = none := by
  rw [refreshTokenOf, Option.map_eq_none_iff, List.find?_eq_none]
  intro e he
  obtain ⟨c, hc, rfl⟩ := List.mem_map.mp he
  exact fun hstarts => h c hc ((startsWith_entry c).mp hstarts)

/-! ## 3. What the handlers set and pass on -/

/-- A login that was given this refresh token has set this cookie. -/
def LoginSets (token : String) (c : SetCookie) : Prop :=
  ∃ service event, (∃ m ∈ calls service (Auth.login event), ∃ out result, m.res = .ok out ∧
    out.authenticationResult = some result ∧ result.refreshToken = some token) ∧
      (answer service (Auth.login event)).setCookie = some c

/-- A logout has set this cookie. -/
def LogoutSets (c : SetCookie) : Prop :=
  ∃ service event, (answer service (Auth.logout event)).setCookie = some c

/-- The refresh handler asks Cognito once, with this token. -/
def Passes (event : Event) (token : String) : Prop :=
  ∀ service, (calls service (Auth.refresh event)).map (·.op) = [.refreshTokenAuth token]

theorem loginSets_eq {token : String} {c : SetCookie} (h : LoginSets token c) :
    c = refreshCookie token (30 * 24 * 60 * 60) := by
  obtain ⟨service, event, ⟨m, hm, out, result, hres, hresult, htoken⟩, hset⟩ := h
  rcases login_cases event with ⟨r, hlogin, -⟩ | ⟨command, next, hlogin, hok, herror⟩
  · simp only [calls, hlogin, Prog.run_ret, List.not_mem_nil] at hm
  · cases hservice : service command with
    | error e =>
      simp only [calls, hlogin, Prog.run_call, hservice, herror, Prog.run_ret,
        List.mem_singleton] at hm
      subst hm
      cases hres
    | ok out' =>
      simp only [calls, answer, hlogin, Prog.run_call, hservice, hok, Prog.run_ret,
        List.mem_singleton] at hm hset
      subst hm
      cases hres
      simp only [loginResponse, hresult, htoken, Option.bind_some, Option.getD_some,
        Option.some.injEq] at hset
      exact hset.symm

theorem loginSets_refreshCookie (token : String) :
    LoginSets token (refreshCookie token (30 * 24 * 60 * 60)) := by
  let result : AuthenticationResult := ⟨none, none, some token, none⟩
  refine ⟨fun _ => .ok { authenticationResult := some result },
    ⟨fun _ => none, [], loginBody "alice" "apple"⟩,
    ⟨⟨.passwordAuth (.str "alice") (.str "apple"), .ok { authenticationResult := some result }⟩,
      ?_, _, result, rfl, rfl, rfl⟩, rfl⟩
  exact List.mem_singleton_self _

theorem logoutSets_eq {c : SetCookie} (h : LogoutSets c) : c = refreshCookie "" 0 := by
  obtain ⟨service, event, hset⟩ := h
  unfold Auth.logout at hset
  cases hbearer : bearer (authHeader event) with
  | none =>
    simp only [hbearer, answer] at hset
    cases hset
  | some token =>
    simp only [hbearer, catching_client, answer, Prog.run_call] at hset
    cases hservice : service (.globalSignOut token) with
    | ok out =>
      rw [hservice] at hset
      cases hset
      rfl
    | error e =>
      rw [hservice] at hset
      cases hset

/-- Without a refresh token, or with an empty one, the refresh handler answers 401. -/
theorem refresh_refused {event : Event} (h : (refreshTokenOf event.cookies).getD "" = "") :
    Auth.refresh event = .ret (Auth.error Lambda.unAuthorized "ERR_REFRESH_UNAUTHORIZED") := by
  unfold Auth.refresh
  rw [h]
  rfl

theorem refresh_passes {event : Event} {token : String}
    (h : refreshTokenOf event.cookies = some token) (hne : token ≠ "") : Passes event token := by
  intro service
  have hrefresh : ∃ next, Auth.refresh event = .call (.refreshTokenAuth token) next ∧
      ∀ x, ∃ r, next x = .ret r := by
    unfold Auth.refresh
    rw [h, Option.getD_some]
    simp only [if_neg hne, catching_client]
    refine ⟨_, rfl, fun x => ?_⟩
    cases x with
    | ok out => exact ⟨_, rfl⟩
    | error e => exact ⟨_, rfl⟩
  obtain ⟨next, heq, hnext⟩ := hrefresh
  obtain ⟨r, hr⟩ := hnext (service (.refreshTokenAuth token))
  simp only [calls, heq, Prog.run_call, hr, Prog.run_ret, List.map_cons, List.map_nil]

/-! ## 4. There and back -/

/-- **The token comes back as it was**: for a browser with these other cookies before and after it,
    what login.ts set is kept, and refresh.ts passes it on; after a logout it refuses. -/
structure RoundTrips (token : String) (before after : List Cookie) : Prop where
  passes : ∀ c, LoginSets token c → ∃ k, stored (header c) = some k ∧
    ∀ event, event.cookies = (before ++ k :: after).map (·.entry) → Passes event token
  cleared : ∀ c, LogoutSets c → stored (header c) = none ∧
    ∀ event, event.cookies = (before ++ after).map (·.entry) →
      ∀ service, (answer service (Auth.refresh event)).statusCode = 401

/-- An event with these cookies. -/
def eventWith (cookies : List Cookie) : Event := ⟨fun _ => none, cookies.map (·.entry), none⟩

/-- A text without an equals sign stands before its first one as a whole. -/
theorem takeWhile_eq_self_iff (cs : List Char) : cs.takeWhile (· != '=') = cs ↔ '=' ∉ cs := by
  rw [List.takeWhile_eq_self_iff]
  constructor
  · intro h hmem
    exact absurd (h _ hmem) (by decide)
  · intro h c hc
    exact bne_iff_ne.mpr fun heq => h (heq ▸ hc)

/-- **The token comes back as it was** if and only if it is not empty and has no equals sign. -/
theorem roundTrips_iff (token : String) (htoken : ∀ c ∈ token.toList, octet c = true)
    (before after : List Cookie) (hothers : ∀ c ∈ before ++ after, c.name ≠ name) :
    RoundTrips token before after ↔ token ≠ "" ∧ '=' ∉ token.toList := by
  have hbefore : ∀ c ∈ before, name ≠ c.name :=
    fun c hc => (hothers c (List.mem_append_left _ hc)).symm
  have hread := @refreshTokenOf_entries before after token hbefore
  constructor
  · intro h
    obtain ⟨k, hk, hpasses⟩ := h.passes _ (loginSets_refreshCookie token)
    rw [stored_login htoken] at hk
    obtain rfl := Option.some.inj hk
    have hasked := hpasses (eventWith (before ++ cookieOf token :: after)) rfl
      (fun _ => .ok {})
    by_cases hempty : String.ofList (token.toList.takeWhile (· != '=')) = ""
    · -- the handler refuses, so it passes nothing
      have hrefused := @refresh_refused (eventWith (before ++ cookieOf token :: after))
        (by rw [eventWith, hread, Option.getD_some, hempty])
      rw [calls, hrefused] at hasked
      cases hasked
    · have hpassed := @refresh_passes (eventWith (before ++ cookieOf token :: after)) _
        hread hempty (fun _ => .ok {})
      rw [hasked] at hpassed
      have heq : token = String.ofList (token.toList.takeWhile (· != '=')) :=
        Command.refreshTokenAuth.inj (List.cons.inj hpassed).1
      refine ⟨fun hnil => hempty (heq ▸ hnil), (takeWhile_eq_self_iff _).mp ?_⟩
      rw [← String.ofList_inj, ← heq, String.ofList_toList]
  · intro h
    obtain ⟨hne, hequals⟩ := h
    rw [(takeWhile_eq_self_iff _).mpr hequals, String.ofList_toList] at hread
    refine ⟨fun c hc => ?_, fun c hc => ?_⟩
    · rw [loginSets_eq hc]
      refine ⟨cookieOf token, stored_login htoken, fun event hcookies => ?_⟩
      exact refresh_passes (hcookies ▸ hread) hne
    · rw [logoutSets_eq hc]
      refine ⟨stored_logout, fun event hcookies service => ?_⟩
      have hnone : refreshTokenOf event.cookies = none := by
        rw [hcookies]
        exact refreshTokenOf_others fun c hc => (hothers c hc).symm
      rw [answer, refresh_refused (by rw [hnone]; rfl)]
      rfl

/-- A token that Cognito could issue, among two other cookies. -/
theorem roundTrips_iff_demo : RoundTrips "eyJjdHkiOiJKV1QifQ.a-b_c"
    [⟨"theme".toList, "dark=1".toList, by decide⟩] [⟨"lang".toList, [], by decide⟩] :=
  (roundTrips_iff _ (List.all_eq_true.mp (by decide)) _ _ (by decide)).mpr (by decide)

/-- A token in base64 is cut off at its padding. -/
theorem padded_not_roundTrips : ¬ RoundTrips "dG9rZW4=" [] [] := by
  intro h
  exact ((roundTrips_iff _ (List.all_eq_true.mp (by decide)) [] [] (by simp)).mp h).2 (by decide)

end RefreshCookie
