/-
  File:      BlogDemo/Lib/Cognito.lean
  Subject:   A COGNITO USER POOL: accounts, the access and refresh tokens it has issued, and the
             commands InitiateAuth, GlobalSignOut and GetUser.

  A command fails where Cognito says so, and may also fail for reasons of its own, with or without
  its effect (`Failure`). New tokens are texts the pool has not issued before.

  * `exec` -- a command on the pool;
  * `Pool.Le` -- what stays from one state of the pool to a later one: a token keeps its user, and one
    that is no longer good does not become good again (`exec_le`).
-/
import BlogDemo.Lib.Js
import BlogDemo.Lib.Prog
import Mathlib.Logic.Function.Basic

namespace Cognito

open Js Atomic

/-! ## 1. Commands -/

/-- InitiateAuth by its AuthFlow, GlobalSignOut and GetUser. -/
inductive Command where
  | passwordAuth (username password : Json)
  | refreshTokenAuth (refreshToken : String)
  | globalSignOut (accessToken : String)
  | getUser (accessToken : String)

structure AuthenticationResult where
  accessToken : Option String
  idToken : Option String
  refreshToken : Option String
  expiresIn : Option Nat

structure Output where
  authenticationResult : Option AuthenticationResult := none
  username : Option String := none
  userAttributes : List (String × String) := []

abbrev Answer (_ : Command) := Except Error Output

/-! ## 2. The pool -/

/-- An access token: it expires by itself, and is revoked when its user signs out everywhere. -/
structure AccessToken where
  user : String
  expired : Bool
  revoked : Bool

/-- A refresh token; `ended` when it expired or was revoked. -/
structure RefreshToken where
  user : String
  ended : Bool

structure Pool where
  password : String → Option String
  attributes : String → List (String × String)
  access : String → Option AccessToken
  refresh : String → Option RefreshToken

/-- The access token is one of this user. -/
def Pool.Issued (p : Pool) (token user : String) : Prop :=
  ∃ x, p.access token = some x ∧ x.user = user

/-- The user of an access token that is neither expired nor revoked. -/
def Pool.userOf (p : Pool) (token : String) : Option String :=
  match p.access token with
  | some x => if x.expired || x.revoked then none else some x.user
  | none => none

/-- The user of a refresh token that has not ended. -/
def Pool.refreshes (p : Pool) (token : String) : Option String :=
  match p.refresh token with
  | some x => if x.ended then none else some x.user
  | none => none

/-- A character of a token. -/
def tokenChar (c : Char) : Bool := c.isAlphanum || "-_.".toList.contains c

def isToken (t : String) : Bool := t != "" && t.toList.all tokenChar

/-- A failure that is none of the command: whether it had its effect all the same. -/
structure Failure where
  error : Error
  done : Bool

/-- What the pool decides when it executes a command: the tokens it issues, and whether it fails. -/
structure Decision where
  access : String
  refresh : String
  id : String
  failure : Option Failure := none

def notAuthorized : Error := ⟨"NotAuthorizedException", "Not authorized"⟩

def internalError : Error := ⟨"InternalErrorException", "Internal error"⟩

def Pool.issueAccess (p : Pool) (token user : String) : Pool :=
  { p with access := Function.update p.access token (some ⟨user, false, false⟩) }

def Pool.issueRefresh (p : Pool) (token user : String) : Pool :=
  { p with refresh := Function.update p.refresh token (some ⟨user, false⟩) }

/-- Every token of the user is revoked. -/
def Pool.signOut (p : Pool) (user : String) : Pool where
  password := p.password
  attributes := p.attributes
  access t := (p.access t).map fun x => if x.user = user then { x with revoked := true } else x
  refresh t := (p.refresh t).map fun x => if x.user = user then { x with ended := true } else x

def freshAccess (p : Pool) (t : String) : Bool := isToken t && (p.access t).isNone

def freshRefresh (p : Pool) (t : String) : Bool := isToken t && (p.refresh t).isNone

/-- A command that does not fail for reasons of the pool. -/
def nominal (d : Decision) : Apply Command Answer Pool
  | .passwordAuth (.str username) (.str password), p =>
    if p.password username ≠ some password then (.error notAuthorized, p)
    else if freshAccess p d.access && freshRefresh p d.refresh then
      (.ok { authenticationResult := some ⟨some d.access, some d.id, some d.refresh, some 3600⟩ },
        (p.issueAccess d.access username).issueRefresh d.refresh username)
    else (.error internalError, p)
  | .passwordAuth _ _, p => (.error ⟨"InvalidParameterException", "Invalid parameter"⟩, p)
  | .refreshTokenAuth token, p =>
    match p.refreshes token with
    | none => (.error notAuthorized, p)
    | some user =>
      if freshAccess p d.access then
        (.ok { authenticationResult := some ⟨some d.access, some d.id, none, some 3600⟩ },
          p.issueAccess d.access user)
      else (.error internalError, p)
  | .globalSignOut token, p =>
    match p.userOf token with
    | none => (.error notAuthorized, p)
    | some user => (.ok {}, p.signOut user)
  | .getUser token, p =>
    match p.userOf token with
    | none => (.error notAuthorized, p)
    | some user => (.ok { username := some user, userAttributes := p.attributes user }, p)

/-- **A command on the pool.** -/
def exec (d : Decision) : Apply Command Answer Pool := fun c p =>
  match d.failure with
  | none => nominal d c p
  | some ⟨e, true⟩ => (.error e, (nominal d c p).2)
  | some ⟨e, false⟩ => (.error e, p)

/-- A command that is answered has its nominal effect. -/
theorem exec_ok {d : Decision} {c : Command} {p p' : Pool} {out : Output}
    (h : exec d c p = (.ok out, p')) : nominal d c p = (.ok out, p') := by
  unfold exec at h
  split at h
  · exact h
  · cases h
  · cases h

section Nominal

variable {d : Decision} {p p' : Pool} {out : Output}

/-- The command of a login that is answered. -/
theorem passwordAuth_ok {username password : Json}
    (h : nominal d (.passwordAuth username password) p = (.ok out, p')) :
    ∃ u w, username = .str u ∧ password = .str w ∧ p.password u = some w ∧
      freshAccess p d.access = true ∧ freshRefresh p d.refresh = true ∧
      out = { authenticationResult := some ⟨some d.access, some d.id, some d.refresh, some 3600⟩ } ∧
      p' = (p.issueAccess d.access u).issueRefresh d.refresh u := by
  unfold nominal at h
  split at h
  · rename_i u w heq
    cases heq
    split at h
    · cases h
    · rename_i hpassword
      split at h
      · rename_i hfresh
        obtain ⟨ha, hr⟩ := Bool.and_eq_true_iff.mp hfresh
        cases h
        exact ⟨_, _, rfl, rfl, not_not.mp hpassword, ha, hr, rfl, rfl⟩
      · cases h
  · cases h
  all_goals rename_i heq; cases heq

/-- The command of a refresh that is answered. -/
theorem refreshTokenAuth_ok {token : String}
    (h : nominal d (.refreshTokenAuth token) p = (.ok out, p')) :
    ∃ u, p.refreshes token = some u ∧ freshAccess p d.access = true ∧
      out = { authenticationResult := some ⟨some d.access, some d.id, none, some 3600⟩ } ∧
      p' = p.issueAccess d.access u := by
  simp only [nominal] at h
  split at h
  · cases h
  · rename_i u hu
    split at h
    · rename_i hfresh
      cases h
      exact ⟨u, hu, hfresh, rfl, rfl⟩
    · cases h

/-- The question for a user that is answered. -/
theorem getUser_ok {token : String} (h : nominal d (.getUser token) p = (.ok out, p')) :
    ∃ u, p.userOf token = some u ∧
      out = { username := some u, userAttributes := p.attributes u } ∧ p' = p := by
  simp only [nominal] at h
  split at h
  · cases h
  · rename_i u hu
    cases h
    exact ⟨u, hu, rfl, rfl⟩

end Nominal

/-- An access token expires. -/
def Pool.expire (p : Pool) (token : String) : Pool :=
  let expired := (p.access token).map fun x => { x with expired := true }
  { p with access := Function.update p.access token expired }

/-- A refresh token expires. -/
def Pool.endRefresh (p : Pool) (token : String) : Pool :=
  let ended := (p.refresh token).map fun x => { x with ended := true }
  { p with refresh := Function.update p.refresh token ended }

/-! ## 3. What stays -/

/-- **A later state of the pool**: tokens keep their user, and do not become good again. -/
structure Pool.Le (p p' : Pool) : Prop where
  password : p'.password = p.password
  access : ∀ t x, p.access t = some x → ∃ x', p'.access t = some x' ∧ x'.user = x.user ∧
    (x.expired = true → x'.expired = true) ∧ (x.revoked = true → x'.revoked = true)
  refresh : ∀ t x, p.refresh t = some x → ∃ x', p'.refresh t = some x' ∧ x'.user = x.user ∧
    (x.ended = true → x'.ended = true)

theorem Pool.Le.refl (p : Pool) : p.Le p :=
  ⟨rfl, fun _ x h => ⟨x, h, rfl, id, id⟩, fun _ x h => ⟨x, h, rfl, id⟩⟩

theorem Pool.Le.trans {p q r : Pool} (h : p.Le q) (h' : q.Le r) : p.Le r := by
  refine ⟨h'.password.trans h.password, fun t x hx => ?_, fun t x hx => ?_⟩
  · obtain ⟨y, hy, hu, he, hr⟩ := h.access t x hx
    obtain ⟨z, hz, hu', he', hr'⟩ := h'.access t y hy
    exact ⟨z, hz, hu'.trans hu, he' ∘ he, hr' ∘ hr⟩
  · obtain ⟨y, hy, hu, he⟩ := h.refresh t x hx
    obtain ⟨z, hz, hu', he'⟩ := h'.refresh t y hy
    exact ⟨z, hz, hu'.trans hu, he' ∘ he⟩

theorem issueAccess_le {p : Pool} {t : String} (h : p.access t = none) (user : String) :
    p.Le (p.issueAccess t user) := by
  refine ⟨rfl, fun t' x hx => ⟨x, ?_, rfl, id, id⟩, fun _ x hx => ⟨x, hx, rfl, id⟩⟩
  have hne : t' ≠ t := by
    intro heq
    subst heq
    rw [h] at hx
    cases hx
  rw [← hx]
  exact Function.update_of_ne hne _ _

theorem issueRefresh_le {p : Pool} {t : String} (h : p.refresh t = none) (user : String) :
    p.Le (p.issueRefresh t user) := by
  refine ⟨rfl, fun _ x hx => ⟨x, hx, rfl, id, id⟩, fun t' x hx => ⟨x, ?_, rfl, id⟩⟩
  have hne : t' ≠ t := by
    intro heq
    subst heq
    rw [h] at hx
    cases hx
  rw [← hx]
  exact Function.update_of_ne hne _ _

theorem signOut_le (p : Pool) (user : String) : p.Le (p.signOut user) := by
  refine ⟨rfl, fun t x hx => ?_, fun t x hx => ?_⟩
  · refine ⟨if x.user = user then { x with revoked := true } else x, ?_, ?_, ?_, ?_⟩
    · simp only [Pool.signOut, hx, Option.map_some]
    all_goals split <;> simp
  · refine ⟨if x.user = user then { x with ended := true } else x, ?_, ?_, ?_⟩
    · simp only [Pool.signOut, hx, Option.map_some]
    all_goals split <;> simp

theorem expire_le (p : Pool) (token : String) : p.Le (p.expire token) := by
  refine ⟨rfl, fun t x hx => ?_, fun _ x hx => ⟨x, hx, rfl, id⟩⟩
  by_cases ht : t = token
  · subst ht
    exact ⟨{ x with expired := true }, by simp [Pool.expire, hx], rfl, fun _ => rfl, id⟩
  · exact ⟨x, by simp [Pool.expire, ht, hx], rfl, id, id⟩

theorem endRefresh_le (p : Pool) (token : String) : p.Le (p.endRefresh token) := by
  refine ⟨rfl, fun _ x hx => ⟨x, hx, rfl, id, id⟩, fun t x hx => ?_⟩
  by_cases ht : t = token
  · subst ht
    exact ⟨{ x with ended := true }, by simp [Pool.endRefresh, hx], rfl, fun _ => rfl⟩
  · exact ⟨x, by simp [Pool.endRefresh, ht, hx], rfl, id⟩

theorem issueAccess_issued (p : Pool) (t user : String) : (p.issueAccess t user).Issued t user :=
  ⟨_, Function.update_self _ _ _, rfl⟩

theorem issueRefresh_known (p : Pool) (t user : String) :
    (p.issueRefresh t user).refresh t ≠ none := by
  simp [Pool.issueRefresh]

theorem fresh_access {p : Pool} {t : String} (h : freshAccess p t = true) :
    isToken t = true ∧ p.access t = none := by
  simpa [freshAccess] using h

theorem fresh_refresh {p : Pool} {t : String} (h : freshRefresh p t = true) :
    isToken t = true ∧ p.refresh t = none := by
  simpa [freshRefresh] using h

theorem nominal_le (d : Decision) (c : Command) (p : Pool) : p.Le (nominal d c p).2 := by
  unfold nominal
  split
  · rename_i username password
    split
    · exact .refl p
    · split
      · rename_i h
        obtain ⟨ha, hr⟩ := Bool.and_eq_true_iff.mp h
        have hrefresh : (p.issueAccess d.access username).refresh d.refresh = none :=
          (fresh_refresh hr).2
        exact (issueAccess_le (fresh_access ha).2 _).trans (issueRefresh_le hrefresh _)
      · exact .refl p
  · exact .refl p
  · split
    · exact .refl p
    · split
      · rename_i h
        exact issueAccess_le (fresh_access h).2 _
      · exact .refl p
  · split
    · exact .refl p
    · exact signOut_le p _
  · split <;> exact .refl p

/-- **A command makes no token good again.** -/
theorem exec_le (d : Decision) (c : Command) (p : Pool) : p.Le (exec d c p).2 := by
  unfold exec
  split
  · exact nominal_le d c p
  · exact nominal_le d c p
  · exact .refl p

theorem Pool.Issued.later {p p' : Pool} {token user : String} (h : p.Issued token user)
    (hle : p.Le p') : p'.Issued token user := by
  obtain ⟨x, hx, rfl⟩ := h
  obtain ⟨x', hx', hu, _⟩ := hle.access token x hx
  exact ⟨x', hx', hu⟩

/-- A token that was issued and is no longer good stays so. -/
theorem userOf_later {p p' : Pool} {token : String} (hle : p.Le p')
    (hknown : p.access token ≠ none) (h : p.userOf token = none) : p'.userOf token = none := by
  obtain ⟨x, hx⟩ := Option.ne_none_iff_exists'.mp hknown
  obtain ⟨x', hx', _, he, hr⟩ := hle.access token x hx
  simp only [Pool.userOf, hx, hx'] at h ⊢
  have hbad : (x.expired || x.revoked) = true := by
    by_contra hgood
    rw [if_neg hgood] at h
    cases h
  have hbad' : (x'.expired || x'.revoked) = true := by
    rcases Bool.or_eq_true_iff.mp hbad with h | h
    · rw [he h, Bool.true_or]
    · rw [hr h, Bool.or_true]
  rw [if_pos hbad']

theorem refreshes_later {p p' : Pool} {token : String} (hle : p.Le p')
    (hknown : p.refresh token ≠ none) (h : p.refreshes token = none) :
    p'.refreshes token = none := by
  obtain ⟨x, hx⟩ := Option.ne_none_iff_exists'.mp hknown
  obtain ⟨x', hx', _, he⟩ := hle.refresh token x hx
  simp only [Pool.refreshes, hx, hx'] at h ⊢
  have hbad : x.ended = true := by
    by_contra hgood
    rw [if_neg hgood] at h
    cases h
  rw [if_pos (he hbad)]

end Cognito
