/-
  File:      BlogDemo/Msa/Me.lean
  Subject:   WHO `GET /auth/me` SAYS ONE IS (auth.service.ts and auth.controller.ts, getMe): the user of
             the session, without the password.

  * `AuthService.getMe`, `AuthController.getMe` -- the query by the id in the session, and its answers;
  * `step_users` -- one step of the services adds at most one user, with an id of its own;
  * **`me_answers`** -- in every run `me` answers 401, or with the user whose password was sent in the
    login that bound the session, however many users have registered since;
    `me_alice` -- what Alice is answered after her login, and that Bob registers in between.
-/
import BlogDemo.Board.Safety
import BlogDemo.Msa.Sessions

namespace Msa

open Js Mongoose ExpressSession Runs

/-! ## 1. getMe -/

/-- `!!userId` -/
def UserId.truthy : UserId → Bool
  | .objectId _ => true
  | .json v => Js.truthy (some v)

/-- The cast of the id that a session has to the type of `_id`. -/
def UserId.cast (M : Package) : UserId → Except Error ObjectId
  | .objectId o => .ok o
  | .json v => match M.objectId v with
    | some o => .ok o
    | none => .error (thrown (.cast "_id"))

/-- A stored user by its paths. -/
def User.fields (u : User) : List (String × Json) := [
  ("_id", .str u.id.toString),
  ("username", .str u.username),
  ("password", .str u.password),
  ("__v", .num (.int 0))]

/-- `.select('-path')` -/
def without (path : String) (fields : List (String × Json)) : Json :=
  .obj (fields.filter (·.1 != path))

/-- `getMe`: `users` are those the driver finds, or the error it fails with. -/
def AuthService.getMe (M : Package) (users : Except Error (List User)) (userId : UserId) :
    Except Error (Option Json) := do
  let id ← userId.cast M
  let users ← users
  return (users.find? (·.id == id)).map fun u => without "password" u.fields

/-- What `me` is answered. -/
inductive MeReply where
  | send (status : Nat) (text : String)
  | json (value : Json)
  deriving DecidableEq

/-- `GET /auth/me` -/
def AuthController.getMe (M : Package) (users : Except Error (List User)) (session : Session) :
    MeReply :=
  match session.userId.filter UserId.truthy with
  | none => .send 401 "Not authenticated"
  | some userId =>
    match AuthService.getMe M users userId with
    | .ok user => .json (user.getD .null)
    | .error err => .send 500 err.message

/-- The user, as `me` shows it. -/
def User.shown (u : User) : Json := .obj [
  ("_id", .str u.id.toString),
  ("username", .str u.username),
  ("__v", .num (.int 0))]

theorem without_password (u : User) : without "password" u.fields = u.shown := by
  simp [without, User.fields, User.shown]

section GetMe

variable {M : Package} {session : Session}

theorem ObjectId.toString_ne (o : ObjectId) : o.toString ≠ "" := by
  intro h
  have hlength := o.length
  rw [← String.toList_ofList (l := o.digits)] at hlength
  rw [show String.ofList o.digits = "" from h] at hlength
  cases hlength

/-- A stored user is found by the id. -/
theorem find_id {users : List User} {u : User} (hu : u ∈ users) (hids : (users.map (·.id)).Nodup) :
    users.find? (·.id == u.id) = some u := by
  cases hfind : users.find? (·.id == u.id) with
  | none => exact absurd (beq_self_eq_true u.id) (List.find?_eq_none.mp hfind u hu)
  | some v =>
      have hid : v.id = u.id :=
        beq_iff_eq.mp (List.find?_some (p := fun v : User => v.id == u.id) hfind)
      rw [List.inj_on_of_nodup_map hids (List.mem_of_find?_eq_some hfind) hu hid]

/-- A session of the id of a stored user shows that user. -/
theorem getMe_found {users : List User} {u : User} (hu : u ∈ users)
    (hids : (users.map (·.id)).Nodup) (hs : session.user = some (.str u.id.toString)) :
    AuthController.getMe M (.ok users) session = .json u.shown := by
  obtain ⟨userId⟩ := session
  obtain ⟨userId, rfl, hjson⟩ := Option.map_eq_some_iff.mp hs
  have hid : userId.truthy = true ∧ userId.cast M = .ok u.id := by
    cases userId with
    | objectId o =>
        obtain rfl := ObjectId.toString_inj (Json.str.inj hjson)
        exact ⟨rfl, rfl⟩
    | json v =>
        obtain rfl : v = .str u.id.toString := hjson
        refine ⟨bne_iff_ne.mpr (ObjectId.toString_ne _), ?_⟩
        rw [UserId.cast, M.objectId_str, ObjectId.ofHex_toString]
  unfold AuthController.getMe
  rw [Option.filter_some, if_pos hid.1]
  simp only [AuthService.getMe, hid.2]
  show MeReply.json (((users.find? (·.id == u.id)).map _).getD .null) = _
  rw [find_id hu hids, Option.map_some, without_password]
  rfl

theorem getMe_none (users : Except Error (List User)) (hs : session.user = none) :
    AuthController.getMe M users session = .send 401 "Not authenticated" := by
  obtain ⟨userId⟩ := session
  cases userId with
  | none => rfl
  | some userId => cases hs

end GetMe

/-! ## 2. The users of a run -/

/-- **At most one user is new**, and has an id that no other has. -/
def Grows (users users' : List User) : Prop :=
  users' = users ∨ ∃ u, users' = users ++ [u] ∧ u.id ∉ users.map (·.id)

section Users

variable {B : Bcrypt.Package} {Q : Query} {ι S : Type}

theorem Grows.subset {users users' : List User} (h : Grows users users') : users ⊆ users' := by
  rcases h with rfl | ⟨u, rfl, _⟩
  · exact fun _ h => h
  · exact List.subset_append_left ..

theorem Grows.nodup {users users' : List User} (h : Grows users users')
    (hids : (users.map (·.id)).Nodup) : (users'.map (·.id)).Nodup := by
  rcases h with rfl | ⟨u, rfl, hu⟩
  · exact hids
  · rw [List.map_append, List.map_singleton, ← List.concat_eq_append, List.nodup_concat]
    exact ⟨hu, hids⟩

/-- A registration, of any body. -/
theorem register_grows (oid : ObjectId) (salt : String) (body : Text) (users : List User) :
    Grows users (AuthController.register B oid salt body users).2 := by
  have hservice : ∀ username password,
      Grows users (AuthService.register B oid salt username password users).2 := by
    intro username password
    unfold AuthService.register
    split
    · exact Or.inl rfl
    · split
      · exact Or.inl rfl
      · dsimp only
        split
        · exact Or.inl rfl
        · split
          · exact Or.inl rfl
          · rename_i hclash
            refine Or.inr ⟨_, rfl, fun hmem => hclash ?_⟩
            obtain ⟨v, hv, hid⟩ := List.mem_map.mp hmem
            exact List.any_eq_true.mpr ⟨v, hv, by simp [User.clashes, hid]⟩
  unfold AuthController.register
  split
  · exact Or.inl rfl
  · rename_i obj _
    have h := hservice (obj.get? "username") (obj.get? "password")
    split
    · rename_i users' heq
      rwa [heq] at h
    · rename_i err users' heq
      rwa [heq] at h

theorem handle_users (req : Request) (s : Session) (users : List User) :
    Grows users (req.handle B Q s users).2 := by
  cases req with
  | register oid salt body => exact register_grows oid salt body users
  | _ => exact Or.inl rfl

variable [DecidableEq ι] [DecidableEq S] {w w' : Sessions ι S}

/-- **One step of the services** adds at most one user. -/
theorem step_users {a : Action ι Request S} (hs : w.step (sessions B Q) a = some w') :
    Grows w.rest w'.rest := by
  have hhandle : ∀ req data d rest, (sessions B Q).handle req data w.rest = (d, rest) →
      Grows w.rest rest := by
    intro req data d rest hh
    have h := handle_users (B := B) (Q := Q) req data w.rest
    rwa [show req.handle B Q data w.rest = (d, rest) from hh] at h
  cases step_view hs with
  | destroy i req sid fresh data rest ht hh => exact hhandle _ _ _ _ hh
  | keep i req sid fresh data d rest ht hh hd => exact hhandle _ _ _ _ hh
  | modify i req sid fresh data d rest ht hh hd => exact hhandle _ _ _ _ hh
  | _ => exact Or.inl rfl

variable {C : Sessions ι S → Action ι Request S → Prop}

/-- No user is ever lost. -/
theorem run_users {w₀ : Sessions ι S} (h : Run (World.step (sessions B Q)) C w₀ w) :
    w₀.rest ⊆ w.rest :=
  h.invariant (I := fun w => w₀.rest ⊆ w.rest) (fun _ hu => hu)
    fun _ ih _ hs _ hu => (step_users hs).subset (ih hu)

/-- Every user has an id of its own. -/
theorem run_ids {users : List User} (hids : (users.map (·.id)).Nodup)
    (h : Run (World.step (sessions B Q)) C (World.start users) w) : (w.rest.map (·.id)).Nodup :=
  h.invariant hids fun _ ih _ hs => (step_users hs).nodup ih

end Users

/-! ## 3. The user of a session -/

section Runs

variable {B : Bcrypt.Package} {Q : Query} {ι S : Type}

/-- **The request `j` proves to be `u`** and binds the session `s`: it is a login whose username selects
    `u`, with a password that compares equal to the stored one. -/
def Proves (B : Bcrypt.Package) (Q : Query) (w : Sessions ι S) (j : ι) (s : S) (u : User) : Prop :=
  ∃ text fresh session body p, w.tasks j = .loaded (.login text) s fresh session ∧
    jsonBody text = some body ∧ Q.findOne (body.get? "username") w.rest = .ok (some u) ∧
    body.get? "password" = some (.str p) ∧ B.compare p u.password = true

/-- A handler leaves the user of its session, or has proved who it is. -/
theorem handle_user {req : Request} {s s' : Session} {users users' : List User}
    (h : req.handle B Q s users = (some s', users')) :
    s'.user = s.user ∨ ∃ text body u p, req = .login text ∧ jsonBody text = some body ∧
      Q.findOne (body.get? "username") users = .ok (some u) ∧
      body.get? "password" = some (.str p) ∧ B.compare p u.password = true ∧
      s'.user = some (.str u.id.toString) := by
  cases req with
  | login text =>
      obtain rfl : (AuthController.login B Q users text s).2 = s' := by
        cases h
        rfl
      unfold AuthController.login
      split
      · exact Or.inl rfl
      · rename_i body hbody
        split
        · rename_i session hlogin
          obtain ⟨u, p, hfind, hp, hcompare, rfl⟩ := login_ok_iff.mp hlogin
          exact Or.inr ⟨text, body, u, p, rfl, hbody, hfind, hp, hcompare, rfl⟩
        · exact Or.inl rfl
  | logout fails =>
      cases fails with
      | true =>
          cases h
          exact Or.inl rfl
      | false => cases h
  | register oid salt body =>
      cases h
      exact Or.inl rfl
  | me =>
      cases h
      exact Or.inl rfl
  | board route =>
      cases h
      exact Or.inl rfl

/-- Who binds a session has proved who it is. -/
theorem binds_proves {w : Sessions ι S} {j : ι} {s : S} {v : Json}
    (h : Binds Session.user (sessions B Q) w j s v) :
    ∃ u, v = .str u.id.toString ∧ u ∈ w.rest ∧ Proves B Q w j s u := by
  obtain ⟨req, fresh, before, after, rest, ht, hh, hafter, hbefore⟩ := h
  rcases handle_user (show req.handle B Q before w.rest = (some after, rest) from hh) with
    hsame | ⟨text, body, u, p, rfl, hbody, hfind, hp, hcompare, huser⟩
  · exact absurd (hsame.symm.trans hafter) hbefore
  · exact ⟨u, Option.some.inj (hafter.symm.trans huser), Q.findOne_mem hfind, text, fresh, before,
      body, p, ht, hbody, hfind, hp, hcompare⟩

variable [DecidableEq ι] [DecidableEq S]

/-- **`me` answers with the user who proved it**: in every run from users with ids of their own, where
    the database answers its query, a request whose session has no user is answered 401, and every
    other with the user who logged in under its session. -/
theorem me_answers (M : Package) {C : Sessions ι S → Action ι Request S → Prop} {users : List User}
    {w : Sessions ι S} {i : ι} {s : S} {fresh : Bool} {session : Session}
    (hids : (users.map (·.id)).Nodup)
    (h : Run (World.step (sessions B Q)) C (World.start users) w)
    (ht : w.tasks i = .loaded .me s fresh session) :
    session.user = none ∧
        AuthController.getMe M (.ok w.rest) session = .send 401 "Not authenticated" ∨
      ∃ w₁ w₂ j u, Run (World.step (sessions B Q)) C (World.start users) w₁ ∧ Proves B Q w₁ j s u ∧
        w₁.step (sessions B Q) (.handle j) = some w₂ ∧ Run (World.step (sessions B Q)) C w₂ w ∧
        AuthController.getMe M (.ok w.rest) session = .json u.shown := by
  cases huser : session.user with
  | none => exact Or.inl ⟨rfl, getMe_none _ huser⟩
  | some v =>
      have htraced : Traced Session.user (sessions B Q) C (World.start users) w :=
        run_origin user_reread rfl h
      obtain ⟨w₁, w₂, j, h₁, _, hbinds, hs, h₂⟩ :=
        htraced.tasks i s session v (by rw [ht]; rfl) huser
      obtain ⟨u, rfl, hu, hproves⟩ := binds_proves hbinds
      have hmem : u ∈ w.rest := run_users h₂ ((step_users hs).subset hu)
      exact Or.inr ⟨w₁, w₂, j, u, h₁, hproves, hs, h₂, getMe_found hmem (run_ids hids h) huser⟩

end Runs

/-- Alice logs in, Bob registers, and Alice asks who she is. -/
def aliceAsks (i j k : Fin 3) : List (Action (Fin 3) Request Nat) :=
  logIn i "alice" "apple" none 1 ++
    [.arrive j (.register bobId "salt" (loginBody "bob" "berry")) none 2, .handle j,
      .arrive k .me (some 1) 3]

/-- The session that the request `i` has in memory, when it asks `me` under the id 1. -/
def asksMe (i : Fin 3) (w : Sessions (Fin 3) Nat) : Option Session :=
  match w.tasks i with
  | .loaded .me 1 false session => some session
  | _ => none

/-- Alice is told who she is, while Bob has registered. -/
theorem me_alice : ∃ (w w₁ : Sessions (Fin 3) Nat) (session : Session) (j : Fin 3) (u : User),
    w.rest.length = 2 ∧ asksMe 2 w = some session ∧ Proves Bcrypt.keyed stringOrNe w₁ j 1 u ∧
    AuthController.getMe Board.strings (.ok w.rest) session = .json u.shown := by
  have hrun : ((script (World.step (sessions Bcrypt.keyed stringOrNe)) (fun _ _ => true)
      (aliceAsks 0 1 2) (World.start [aliceUser])).any fun w => w.rest.length = 2 &&
        (asksMe 2 w).any (·.user.isSome)) = true := by
    decide +kernel
  obtain ⟨w, hw, hasks⟩ := (Option.any_eq_true _ _).mp hrun
  simp only [Bool.and_eq_true, decide_eq_true_eq] at hasks
  obtain ⟨hlength, hasks⟩ := hasks
  obtain ⟨session, hsession, huser⟩ := (Option.any_eq_true _ _).mp hasks
  have ht : w.tasks 2 = .loaded .me 1 false session := by
    unfold asksMe at hsession
    split at hsession
    · rename_i session' ht
      cases hsession
      exact ht
    · cases hsession
  have hids : ([aliceUser].map (·.id)).Nodup := List.nodup_singleton _
  rcases me_answers Board.strings hids (script_free hw) ht with
    ⟨hnone, _⟩ | ⟨w₁, _, j, u, _, hproves, _, _, hme⟩
  · rw [hnone] at huser
    cases huser
  · exact ⟨w, w₁, session, j, u, hlength, hsession, hproves, hme⟩

end Msa
