/-
  File:      BlogDemo/Msa/Sessions.lean
  Subject:   THE SESSIONS OF THE TWO SERVICES (auth-service/src/main.ts, board-service/src/main.ts):
             one store of sessions, the requests of any number of clients, and who is treated as whom.

  A client may present any id that it or another client has received.

  * `sessions` -- the two services as one application of express-session;
  * `LogsIn`, `TreatedAs` -- a login that succeeds under a session id, and a request that a service
    takes for one of a user;
  * `Unfixed` -- a login binds an id that no client held before, and only a login lets a service
    treat a request as one of a user;
    **`unfixed_of_newSession`** -- so it is in every run whose logins are on requests that got a new
    session; `planted_not_unfixed` -- a login on a request that bore another user's id.
-/
import BlogDemo.Lib.ExpressSession
import BlogDemo.Msa.Accounts
import BlogDemo.Board.Service
import Mathlib

namespace Msa

open Js Mongoose ExpressSession Runs

/-! ## 1. The services -/

/-- A request, with what the server would choose for it. -/
inductive Request where
  | register (oid : ObjectId) (salt : String) (body : Text)
  | login (body : Text)
  /-- `fails`: the store rejects the removal of the session. -/
  | logout (fails : Bool)
  | me
  | board (route : Board.Route)

/-- `JSON.stringify` of an ObjectId is its hexadecimal text. -/
def UserId.toJSON : UserId → Json
  | .objectId o => .str o.toString
  | .json v => v

/-- The session as it is read back from the store. -/
def Session.reread (s : Session) : Session := ⟨s.userId.map fun u => .json u.toJSON⟩

/-- `req.session.userId`, as JSON has it. -/
def Session.user (s : Session) : Option Json := s.userId.map UserId.toJSON

section Services

variable (B : Bcrypt.Package) (Q : Query)

/-- What a request does to its session and to the users; the board only reads the session. -/
def Request.handle : Request → Session → List User → Option Session × List User
  | .register oid salt body, s, users =>
    (some s, (AuthController.register B oid salt body users).2)
  | .login body, s, users => (some (AuthController.login B Q users body s).2, users)
  | .logout fails, s, users => (if fails then some s else none, users)
  | .me, s, users => (some s, users)
  | .board _, s, users => (some s, users)

/-- **The two services over one store.** -/
def sessions : App Request Session (List User) where
  handle := Request.handle B Q
  empty := ⟨none⟩
  reread := Session.reread

abbrev Sessions (ι S : Type) := World ι Request Session (List User) S

variable {ι S : Type}

/-- **A login by `u` succeeds** on the request `i`, whose session has the id `s`. -/
def LogsIn (w : Sessions ι S) (i : ι) (s : S) (u : ObjectId) : Prop :=
  ∃ body fresh session, w.tasks i = .loaded (.login body) s fresh session ∧
    (AuthController.login B Q w.rest body session).1.ok = true ∧
    (AuthController.login B Q w.rest body session).2.userId = some (.objectId u)

/-- **A service treats the request `i` as one of `u`**: it bears the id `s`, and its session has the
    user that the middleware and the controllers read. -/
def TreatedAs (w : Sessions ι S) (i : ι) (s : S) (u : ObjectId) : Prop :=
  ∃ req fresh session, w.tasks i = .loaded req s fresh session ∧
    session.user = some (.str u.toString)

/-- A login that succeeds is on a request that bore no id of a stored session. -/
def newSession (w : Sessions ι S) : Action ι Request S → Bool
  | .handle i =>
    match w.tasks i with
    | .loaded (.login body) _ fresh session =>
      fresh || !(AuthController.login B Q w.rest body session).1.ok
    | _ => true
  | _ => true

variable [DecidableEq ι] [DecidableEq S]

/-- **No session is fixed**, in the world `w` of a run: the id under which a login binds a user is
    held by no client before it, and whoever is treated as a user bears the id of such a login. -/
structure Unfixed (C : Sessions ι S → Action ι Request S → Prop) (w₀ w : Sessions ι S) : Prop where
  login : ∀ i s u, C w (.handle i) → LogsIn B Q w i s u → s ∉ w.held
  treated : ∀ i s u, TreatedAs w i s u → ∃ w₁ w₂ j, Run (World.step (sessions B Q)) C w₀ w₁ ∧
    LogsIn B Q w₁ j s u ∧ s ∉ w₁.held ∧ w₁.step (sessions B Q) (.handle j) = some w₂ ∧
    Run (World.step (sessions B Q)) C w₂ w

end Services

/-! ## 2. Logins -/

variable {B : Bcrypt.Package} {Q : Query} {users : List User} {session : Session}

/-- A login succeeds and binds the session to a user, or fails and leaves it. -/
theorem login_cases (body : Text) :
    (∃ u, (AuthController.login B Q users body session).1.ok = true ∧
      (AuthController.login B Q users body session).2 = ⟨some (.objectId u)⟩) ∨
    (AuthController.login B Q users body session).1.ok = false ∧
      (AuthController.login B Q users body session).2 = session := by
  unfold AuthController.login
  split
  · exact Or.inr ⟨rfl, rfl⟩
  · split
    · rename_i session' hlogin
      obtain ⟨u, _, _, _, _, rfl⟩ := login_ok_iff.mp hlogin
      exact Or.inl ⟨u.id, rfl, rfl⟩
    · exact Or.inr ⟨rfl, rfl⟩

theorem user_reread (s : Session) : s.reread.user = s.user := by
  cases s with
  | mk userId => cases userId <;> rfl

section Runs

variable {ι S : Type} {w : Sessions ι S} {i : ι} {s : S} {u : ObjectId}

/-- **Only a login binds a session to a user.** -/
theorem binds_logsIn (h : Binds Session.user (sessions B Q) w i s (.str u.toString)) :
    LogsIn B Q w i s u := by
  obtain ⟨req, fresh, before, after, rest, ht, hh, hafter, hbefore⟩ := h
  have hkeep : after ≠ before := by
    intro heq
    subst heq
    exact hbefore hafter
  cases req with
  | login body =>
      obtain rfl : (AuthController.login B Q w.rest body before).2 = after := by
        cases hh
        rfl
      rcases @login_cases B Q w.rest before body with
        ⟨v, hok, hsession⟩ | ⟨_, hsame⟩
      · rw [hsession] at hafter
        obtain rfl : v = u := ObjectId.toString_inj (Json.str.inj (Option.some.inj hafter))
        exact ⟨body, fresh, before, ht, hok, by rw [hsession]⟩
      · exact absurd hsame hkeep
  | logout fails =>
      cases fails with
      | true =>
          cases hh
          exact absurd rfl hkeep
      | false => cases hh
  | register oid salt body =>
      cases hh
      exact absurd rfl hkeep
  | me =>
      cases hh
      exact absurd rfl hkeep
  | board route =>
      cases hh
      exact absurd rfl hkeep

/-- A login on a new session binds an id that no client holds. -/
theorem logsIn_unheld (hsane : Sane w) (hnew : newSession B Q w (.handle i) = true)
    (h : LogsIn B Q w i s u) : s ∉ w.held := by
  obtain ⟨body, fresh, session, ht, hok, _⟩ := h
  simp only [newSession, ht, hok, Bool.not_true, Bool.or_false] at hnew
  subst hnew
  exact hsane.new i _ s session ht

end Runs

/-- **In every run whose logins are on requests that got a new session** no session is fixed. -/
theorem unfixed_of_newSession (B : Bcrypt.Package) (Q : Query) {ι S : Type} [DecidableEq ι]
    [DecidableEq S] (users : List User) (w : Sessions ι S)
    (h : Run (World.step (sessions B Q)) (fun w a => newSession B Q w a = true)
      (World.start users) w) :
    Unfixed B Q (fun w a => newSession B Q w a = true) (World.start users) w := by
  refine ⟨fun i s u hnew hlogin => ?_, fun i s u htreated => ?_⟩
  · exact logsIn_unheld (run_sane h (start_sane users)) hnew hlogin
  · obtain ⟨req, fresh, session, ht, huser⟩ := htreated
    have htraced : Traced Session.user (sessions B Q) _ (World.start users) w :=
      run_origin user_reread rfl h
    obtain ⟨w₁, w₂, j, h₁, hnew, hbinds, hs, h₂⟩ :=
      htraced.tasks i s session _ (by rw [ht]; rfl) huser
    have hlogin := binds_logsIn hbinds
    have hunheld := logsIn_unheld (run_sane h₁ (start_sane users)) hnew hlogin
    exact ⟨w₁, w₂, j, h₁, hlogin, hunheld, hs, h₂⟩

def bobId : ObjectId := ⟨List.replicate 24 'b', rfl, by decide⟩

/-- Alice and Bob. -/
def aliceAndBob : List User := [aliceUser, ⟨bobId, "bob", Bcrypt.keyed.hash "salt" "berry"⟩]

def loginBody (username password : String) : Text :=
  .json (.obj [("username", .str username), ("password", .str password)])

/-- A login of one request, from its arrival to its reply. -/
def logIn (i : Fin 3) (username password : String) (cookie : Option Nat) (sid : Nat) :
    List (Action (Fin 3) Request Nat) :=
  [.arrive i (.login (loginBody username password)) cookie sid, .handle i, .save i, .receive i]

/-- Alice and Bob log in on requests without a cookie; then Bob asks the board. -/
theorem unfixed_alice_bob : ∃ w : Sessions (Fin 3) Nat,
    Run (World.step (sessions Bcrypt.keyed stringOrNe))
      (fun w a => newSession Bcrypt.keyed stringOrNe w a = true) (World.start aliceAndBob) w ∧
    w.held = [2, 1] ∧
    Unfixed Bcrypt.keyed stringOrNe
      (fun w a => newSession Bcrypt.keyed stringOrNe w a = true) (World.start aliceAndBob) w := by
  have hrun : (script (World.step (sessions Bcrypt.keyed stringOrNe))
      (newSession Bcrypt.keyed stringOrNe)
      (logIn 0 "alice" "apple" none 1 ++ logIn 1 "bob" "berry" none 2 ++
        [.arrive 2 (.board .findAll) (some 2) 3]) (World.start aliceAndBob)).any
        (fun w => w.held = [2, 1]) = true := by
    decide +kernel
  obtain ⟨w, hw, hheld⟩ := (Option.any_eq_true _ _).mp hrun
  have hreach := script_run .start hw
  exact ⟨w, hreach, of_decide_eq_true hheld,
    unfixed_of_newSession Bcrypt.keyed stringOrNe aliceAndBob w hreach⟩

/-- The request `i` is a login of Bob that succeeds under the id 1, which a client holds. -/
def bobUnderHeldId (i : Fin 3) (w : Sessions (Fin 3) Nat) : Bool :=
  match w.tasks i with
  | .loaded (.login body) sid _ session =>
    sid == 1 && (AuthController.login Bcrypt.keyed stringOrNe w.rest body session).1.ok &&
      (AuthController.login Bcrypt.keyed stringOrNe w.rest body session).2.userId ==
        some (.objectId bobId) && w.held.contains 1
  | _ => false

/-- Bob logs in on a request that bears the id of Alice's session, and it becomes his. -/
theorem planted_not_unfixed : ¬ ∀ (B : Bcrypt.Package) (Q : Query) (ι S : Type) [DecidableEq ι]
    [DecidableEq S] (users : List User) (w : Sessions ι S),
    Run (World.step (sessions B Q)) free (World.start users) w →
    Unfixed B Q free (World.start users) w := by
  intro h
  have hrun : (script (World.step (sessions Bcrypt.keyed stringOrNe)) (fun _ _ => true)
      (logIn 0 "alice" "apple" none 1 ++
        [.arrive 1 (.login (loginBody "bob" "berry")) (some 1) 2])
      (World.start aliceAndBob)).any (bobUnderHeldId 1) = true := by
    decide +kernel
  obtain ⟨w, hw, hbob⟩ := (Option.any_eq_true _ _).mp hrun
  have hunfixed := h Bcrypt.keyed stringOrNe (Fin 3) Nat aliceAndBob w (script_free hw)
  unfold bobUnderHeldId at hbob
  split at hbob
  · rename_i body sid fresh session ht
    simp only [Bool.and_eq_true, beq_iff_eq, List.contains_iff_mem] at hbob
    obtain ⟨⟨⟨rfl, hok⟩, huser⟩, hheld⟩ := hbob
    exact hunfixed.login 1 1 bobId trivial ⟨body, fresh, session, ht, hok, huser⟩ hheld
  · cases hbob

end Msa
