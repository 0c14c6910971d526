/-
  File:      BlogDemo/Msa/Accounts.lean
  Subject:   THE ACCOUNTS OF THE AUTH SERVICE (auth-service/src/auth): entity, service and controller,
             over the collection of users and the session of a request.

  What the service leaves to packages are parameters: `Bcrypt.Package`, and `Query`, what a filter
  `{ username }` selects when the username is no string.

  * `Registered` -- the accounts after any registrations that succeed, and the users stored for them;
  * `Exact` -- a login lets in exactly who sends a registered username and its password;
    `Confuses` -- a body that gets in with another password, or with no username;
    **`login_exact_iff`** -- a login is exact but for such bodies.
-/
import BlogDemo.Lib.Bcrypt
import BlogDemo.Lib.Mongoose
import Mathlib.Data.List.Nodup

namespace Msa

open Js Mongoose

/-! ## 1. user.entity.ts -/

structure User where
  id : ObjectId
  username : String
  password : String
  deriving DecidableEq

def UserSchema : Schema := [
  ⟨"username", .string, true⟩,
  ⟨"password", .string, true⟩,
  ⟨"_id", .objectId, false⟩,
  ⟨"__v", .number, false⟩]

/-- The user as the document that is stored. -/
def User.document (u : User) : Attrs Value :=
  Attrs.of [("_id", .objectId u.id), ("username", .string u.username),
    ("password", .string u.password), ("__v", .number (.int 0))]

/-- The document clashes with one that is stored: `_id` and `username` are unique. -/
def User.clashes (u v : User) : Bool := u.id == v.id || u.username == v.username

/-- **What a filter `{ username }` selects**: for a string the user of that name. -/
structure Query where
  findOne : Option Json → List User → Except Error (Option User)
  findOne_str : ∀ s users, findOne (some (.str s)) users = .ok (users.find? (·.username == s))
  findOne_mem : ∀ {username users u}, findOne username users = .ok (some u) → u ∈ users

/-- The text of a failed cast, which shows the value too, by `util.inspect`: that is left out. -/
def castText (type path : String) : String :=
  "Cast to " ++ type ++ " failed for value at path \"" ++ path ++ "\""

/-- A failure of the model, as it is thrown. -/
def thrown : Failure → Error
  | .cast path => ⟨"CastError", castText "ObjectId" path ++ " for model \"User\""⟩
  | .validation path reason =>
      ⟨"ValidationError", "User validation failed: " ++ path ++ ": " ++ reason⟩
  | .driver e => e

/-! ## 2. auth.service.ts -/

/-- The user a session is bound to: as it was assigned, or as it was read from the store. -/
inductive UserId where
  | objectId (o : ObjectId)
  | json (v : Json)
  deriving DecidableEq

/-- `req.session` -/
structure Session where
  userId : Option UserId
  deriving DecidableEq

def UnauthorizedException (message : String) : Error := ⟨"UnauthorizedException", message⟩

section Service

variable (B : Bcrypt.Package) (Q : Query)

/-- A username as the path takes it: `undefined` and `null` are missing, the rest is cast. -/
def castUsername : Option Json → Except Error String
  | none => .error (thrown (.validation "username" (requiredText "username")))
  | some .null => .error (thrown (.validation "username" (requiredText "username")))
  | some v => match castString v with
    | some s => .ok s
    | none => .error (thrown (.validation "username" (castText "string" "username")))

/-- `register`: `oid` is the `_id` of the new document, `salt` the one bcrypt chooses. -/
def AuthService.register (oid : ObjectId) (salt : String) (username password : Option Json)
    (users : List User) : Except Error Unit × List User :=
  match B.hashAny salt password with
  | .error e => (.error e, users)
  | .ok hashedPassword =>
    match castUsername username with
    | .error e => (.error e, users)
    | .ok name =>
      let user : User := ⟨oid, name, hashedPassword⟩
      -- `user.save()`
      match UserSchema.validate user.document with
      | .error e => (.error (thrown e), users)
      | .ok () =>
        if users.any user.clashes then (.error (thrown duplicateKey), users)
        else (.ok (), users ++ [user])

def AuthService.login (users : List User) (username password : Option Json) (session : Session) :
    Except Error Session := do
  let user ← Q.findOne username users
  match user with
  | none => throw (UnauthorizedException "Invalid credentials")
  | some user =>
    if !(← B.compareAny password user.password) then
      throw (UnauthorizedException "Invalid credentials")
    return { session with userId := some (.objectId user.id) }

end Service

/-! ## 3. auth.controller.ts -/

/-- A reply; a body the parser refuses is answered by the parser. -/
structure Reply where
  status : Nat
  text : String

def Reply.ok (r : Reply) : Bool := 200 ≤ r.status && r.status ≤ 299

/-- `express.json()`, which takes objects and arrays only. -/
def jsonBody : Text → Option Json
  | .json (.obj fields) => some (.obj fields)
  | .json (.arr xs) => some (.arr xs)
  | _ => none

def badRequest : Reply := ⟨400, "Bad Request"⟩

section Controller

variable (B : Bcrypt.Package) (Q : Query)

/-- `POST /auth/register` -/
def AuthController.register (oid : ObjectId) (salt : String) (body : Text) (users : List User) :
    Reply × List User :=
  match jsonBody body with
  | none => (badRequest, users)
  | some body =>
    match AuthService.register B oid salt (body.get? "username") (body.get? "password") users with
    | (.ok (), users) => (⟨201, "User registered"⟩, users)
    | (.error err, users) => (⟨400, err.message⟩, users)

/-- `POST /auth/login`; a POST is answered 201 where the code sets no status. -/
def AuthController.login (users : List User) (body : Text) (session : Session) : Reply × Session :=
  match jsonBody body with
  | none => (badRequest, session)
  | some body =>
    match AuthService.login B Q users (body.get? "username") (body.get? "password") session with
    | .ok session => (⟨201, "Logged in"⟩, session)
    | .error err => (⟨401, err.message⟩, session)

end Controller

/-! ## 4. Registered accounts -/

/-- An account, as its owner knows it. -/
structure Account where
  id : ObjectId
  username : String
  password : String

variable {B : Bcrypt.Package} {Q : Query}

/-- **The accounts of a sequence of registrations that succeed**, and the users it stores. -/
inductive Registered (B : Bcrypt.Package) : List Account → List User → Prop where
  | none : Registered B [] []
  | register {accounts : List Account} {users users' : List User}
      (h : Registered B accounts users) (oid : ObjectId) (salt username password : String)
      (hs : AuthService.register B oid salt (some (.str username)) (some (.str password)) users =
        (.ok (), users')) : Registered B (accounts ++ [⟨oid, username, password⟩]) users'

/-- A registration that succeeds stores a user whom no stored one clashes with. -/
theorem register_ok {oid : ObjectId} {salt username password : String} {users users' : List User}
    (h : AuthService.register B oid salt (some (.str username)) (some (.str password)) users =
      (.ok (), users')) : users' = users ++ [⟨oid, username, B.hash salt password⟩] ∧
      oid ∉ users.map (·.id) ∧ username ∉ users.map (·.username) := by
  simp only [AuthService.register, Bcrypt.Package.hashAny, castUsername, castString] at h
  split at h
  · cases h
  · split at h
    · cases h
    · rename_i hclash
      cases h
      refine ⟨rfl, fun hid => hclash ?_, fun hname => hclash ?_⟩
      · obtain ⟨u, hu, hid⟩ := List.mem_map.mp hid
        exact List.any_eq_true.mpr ⟨u, hu, by simp [User.clashes, hid]⟩
      · obtain ⟨u, hu, hname⟩ := List.mem_map.mp hname
        exact List.any_eq_true.mpr ⟨u, hu, by simp [User.clashes, hname, Json.toStr]⟩

/-- The user stored for an account. -/
structure StoredAs (B : Bcrypt.Package) (a : Account) (u : User) : Prop where
  id : u.id = a.id
  username : u.username = a.username
  password : ∃ salt, u.password = B.hash salt a.password

/-- **Accounts and users**, one for one, each with an id and a name of its own. -/
structure Stored (B : Bcrypt.Package) (accounts : List Account) (users : List User) : Prop where
  forth : ∀ a ∈ accounts, ∃ u ∈ users, StoredAs B a u
  back : ∀ u ∈ users, ∃ a ∈ accounts, StoredAs B a u
  names : (accounts.map (·.username)).Nodup
  usernames : (users.map (·.username)).Nodup
  ids : (users.map (·.id)).Nodup

theorem registered_stored {accounts : List Account} {users : List User}
    (h : Registered B accounts users) : Stored B accounts users := by
  induction h with
  | none => exact ⟨nofun, nofun, List.nodup_nil, List.nodup_nil, List.nodup_nil⟩
  | @register accounts users users' h oid salt username password hs ih =>
      obtain ⟨rfl, hid, hname⟩ := register_ok hs
      have hstored : StoredAs B ⟨oid, username, password⟩ ⟨oid, username, B.hash salt password⟩ :=
        ⟨rfl, rfl, salt, rfl⟩
      have hnew : username ∉ accounts.map (·.username) := fun hmem => by
        obtain ⟨a, ha, rfl⟩ := List.mem_map.mp hmem
        obtain ⟨u, hu, hau⟩ := ih.forth a ha
        exact hname (List.mem_map.mpr ⟨u, hu, hau.username⟩)
      refine ⟨fun a ha => ?_, fun u hu => ?_, ?_, ?_, ?_⟩
      · rcases List.mem_append.mp ha with ha | ha
        · obtain ⟨u, hu, hau⟩ := ih.forth a ha
          exact ⟨u, List.mem_append_left _ hu, hau⟩
        · obtain rfl := List.mem_singleton.mp ha
          exact ⟨_, List.mem_append_right _ List.mem_cons_self, hstored⟩
      · rcases List.mem_append.mp hu with hu | hu
        · obtain ⟨a, ha, hau⟩ := ih.back u hu
          exact ⟨a, List.mem_append_left _ ha, hau⟩
        · obtain rfl := List.mem_singleton.mp hu
          exact ⟨_, List.mem_append_right _ List.mem_cons_self, hstored⟩
      all_goals rw [List.map_append, List.map_singleton, ← List.concat_eq_append, List.nodup_concat]
      · exact ⟨hnew, ih.names⟩
      · exact ⟨hname, ih.usernames⟩
      · exact ⟨hid, ih.ids⟩

section Stored

variable {accounts : List Account} {users : List User}

/-- The user of a name is the one stored for the account of that name. -/
theorem Stored.find (h : Stored B accounts users) {a : Account} {u : User} (hu : u ∈ users)
    (hau : StoredAs B a u) : users.find? (·.username == a.username) = some u := by
  cases hfind : users.find? (·.username == a.username) with
  | none => exact absurd (beq_iff_eq.mpr hau.username) (List.find?_eq_none.mp hfind u hu)
  | some v =>
      have hname : v.username = u.username :=
        (beq_iff_eq.mp (List.find?_some (p := fun u : User => u.username == a.username) hfind)).trans
          hau.username.symm
      rw [List.inj_on_of_nodup_map h.usernames (List.mem_of_find?_eq_some hfind) hu hname]

/-- An account is known by its name. -/
theorem Stored.account (h : Stored B accounts users) {a b : Account} (ha : a ∈ accounts)
    (hb : b ∈ accounts) (hab : a.username = b.username) : a = b :=
  List.inj_on_of_nodup_map h.names ha hb hab

/-- A stored password is compared by key. -/
theorem StoredAs.compare {a : Account} {u : User} (h : StoredAs B a u) (p : String) :
    B.compare p u.password = decide (Bcrypt.key p = Bcrypt.key a.password) := by
  obtain ⟨salt, hsalt⟩ := h.password
  rw [hsalt, B.compare_hash]

end Stored

/-! ## 5. Who gets in -/

/-- The body has the username and the password of the account. -/
def Account.Named (a : Account) (body : Json) : Prop :=
  body.get? "username" = some (.str a.username) ∧ body.get? "password" = some (.str a.password)

/-- The body gets in as the account: its user is selected, and the password has its key. -/
def Enters (Q : Query) (users : List User) (body : Json) (a : Account) : Prop :=
  ∃ u p, Q.findOne (body.get? "username") users = .ok (some u) ∧ u.id = a.id ∧
    body.get? "password" = some (.str p) ∧ Bcrypt.key p = Bcrypt.key a.password

/-- **A login is exact**: it succeeds for the bodies of the accounts and no others, binds the session
    to the account, and leaves the session as it was when it fails. -/
structure Exact (accounts : List Account) (body : Json) (session : Session)
    (out : Reply × Session) : Prop where
  success : out.1.ok = true ↔ ∃ a ∈ accounts, a.Named body
  bound : ∀ a ∈ accounts, a.Named body → out.2.userId = some (.objectId a.id)
  failure : out.1.ok = false → out.2 = session

/-- **A body that gets in otherwise**: with another password of the same key, or with a username that
    is no string and selects the account. -/
inductive Confuses (Q : Query) (accounts : List Account) (users : List User) (body : Json) :
    Prop where
  | password (a : Account) (ha : a ∈ accounts) (p : String)
      (hname : body.get? "username" = some (.str a.username))
      (hp : body.get? "password" = some (.str p)) (hne : p ≠ a.password)
      (hkey : Bcrypt.key p = Bcrypt.key a.password)
  | username (a : Account) (ha : a ∈ accounts) (u : User) (p : String)
      (hname : ∀ s, body.get? "username" ≠ some (.str s))
      (hu : Q.findOne (body.get? "username") users = .ok (some u)) (hid : u.id = a.id)
      (hp : body.get? "password" = some (.str p)) (hkey : Bcrypt.key p = Bcrypt.key a.password)

section Login

variable {users : List User} {username password : Option Json} {session session' : Session}

/-- The login of a user who was found. -/
theorem login_found {u : User} (h : Q.findOne username users = .ok (some u)) :
    AuthService.login B Q users username password session =
      match B.compareAny password u.password with
      | .ok true => .ok ⟨some (.objectId u.id)⟩
      | .ok false => .error (UnauthorizedException "Invalid credentials")
      | .error e => .error e := by
  unfold AuthService.login
  rw [h]
  show (B.compareAny password u.password >>= _) = _
  cases B.compareAny password u.password with
  | error e => rfl
  | ok equal => cases equal <;> rfl

/-- **The service lets in** whom the filter selects and whose password compares equal. -/
theorem login_ok_iff :
    AuthService.login B Q users username password session = .ok session' ↔ ∃ u p,
      Q.findOne username users = .ok (some u) ∧ password = some (.str p) ∧
      B.compare p u.password = true ∧ session' = ⟨some (.objectId u.id)⟩ := by
  constructor
  · intro h
    cases hfind : Q.findOne username users with
    | error e =>
        rw [AuthService.login, hfind] at h
        cases h
    | ok found =>
        cases found with
        | none =>
            rw [AuthService.login, hfind] at h
            cases h
        | some u =>
            rw [login_found hfind] at h
            split at h
            · rename_i hcompare
              cases h
              unfold Bcrypt.Package.compareAny at hcompare
              split at hcompare
              · exact ⟨u, _, rfl, rfl, Except.ok.inj hcompare, rfl⟩
              · cases hcompare
            · cases h
            · cases h
  · intro h'
    obtain ⟨u, p, hfind, rfl, hcompare, rfl⟩ := h'
    rw [login_found hfind, Bcrypt.Package.compareAny, hcompare]

end Login

/-- The endpoint answers for the service; a body that is no object and no array has no password. -/
theorem login_endpoint (users : List User) (body : Json) (session : Session) :
    AuthController.login B Q users (.json body) session =
      (match AuthService.login B Q users (body.get? "username") (body.get? "password") session with
      | .ok session => (⟨201, "Logged in"⟩, session)
      | .error err => (⟨401, err.message⟩, session)) ∨
    body.get? "password" = none ∧
      AuthController.login B Q users (.json body) session = (badRequest, session) := by
  cases body with
  | obj fields => exact Or.inl rfl
  | arr xs => exact Or.inl rfl
  | _ => exact Or.inr ⟨rfl, rfl⟩

section Exact

variable {accounts : List Account} {users : List User} {body : Json} {session : Session}

theorem Stored.of_id (hst : Stored B accounts users) {a : Account} {u : User} (ha : a ∈ accounts)
    (hu : u ∈ users) (hid : u.id = a.id) : StoredAs B a u := by
  obtain ⟨v, hv, hav⟩ := hst.forth a ha
  rwa [List.inj_on_of_nodup_map hst.ids hu hv (hid.trans hav.id.symm)]

/-- **A login succeeds for the bodies that get in as an account**, and binds the session to it. -/
theorem login_enters (hst : Stored B accounts users) :
    ((AuthController.login B Q users (.json body) session).1.ok = true ↔
      ∃ a ∈ accounts, Enters Q users body a) ∧
    (∀ a ∈ accounts, Enters Q users body a →
      (AuthController.login B Q users (.json body) session).2.userId = some (.objectId a.id)) ∧
    ((AuthController.login B Q users (.json body) session).1.ok = false →
      (AuthController.login B Q users (.json body) session).2 = session) := by
  have hin : ∀ a ∈ accounts, Enters Q users body a →
      AuthService.login B Q users (body.get? "username") (body.get? "password") session =
        .ok ⟨some (.objectId a.id)⟩ := by
    rintro a ha ⟨u, p, hfind, hid, hp, hkey⟩
    refine login_ok_iff.mpr ⟨u, p, hfind, hp, ?_, by rw [hid]⟩
    rw [(hst.of_id ha (Q.findOne_mem hfind) hid).compare, hkey]
    exact decide_eq_true rfl
  have hout : ∀ session', AuthService.login B Q users (body.get? "username")
      (body.get? "password") session = .ok session' → ∃ a ∈ accounts, Enters Q users body a := by
    intro session' h
    obtain ⟨u, p, hfind, hp, hcompare, _⟩ := login_ok_iff.mp h
    obtain ⟨a, ha, hau⟩ := hst.back u (Q.findOne_mem hfind)
    rw [hau.compare] at hcompare
    exact ⟨a, ha, u, p, hfind, hau.id, hp, of_decide_eq_true hcompare⟩
  rcases login_endpoint (B := B) (Q := Q) users body session with heq | ⟨hnone, heq⟩
  · rw [heq]
    cases hlogin : AuthService.login B Q users (body.get? "username") (body.get? "password")
        session with
    | ok session' =>
        refine ⟨⟨fun _ => hout session' hlogin, fun _ => rfl⟩, fun a ha hauth => ?_, nofun⟩
        rw [hin a ha hauth] at hlogin
        cases hlogin
        rfl
    | error err =>
        have hno : ∀ a ∈ accounts, ¬ Enters Q users body a := fun a ha hauth => by
          rw [hin a ha hauth] at hlogin
          cases hlogin
        exact ⟨⟨nofun, fun ⟨a, ha, hauth⟩ => absurd hauth (hno a ha)⟩,
          fun a ha hauth => absurd hauth (hno a ha), fun _ => rfl⟩
  · rw [heq]
    have hno : ∀ a, ¬ Enters Q users body a := by
      rintro a ⟨_, p, _, _, hp, _⟩
      rw [hnone] at hp
      cases hp
    exact ⟨⟨nofun, fun ⟨a, _, hauth⟩ => absurd hauth (hno a)⟩, fun a _ hauth => absurd hauth (hno a),
      fun _ => rfl⟩

/-- Who sends an account's username and password gets in. -/
theorem Account.Named.enters (hst : Stored B accounts users) {a : Account} (ha : a ∈ accounts)
    (h : a.Named body) : Enters Q users body a := by
  obtain ⟨u, hu, hau⟩ := hst.forth a ha
  refine ⟨u, a.password, ?_, hau.id, h.2, rfl⟩
  rw [h.1, Q.findOne_str, hst.find hu hau]

end Exact

/-- **A login is exact** but for the bodies that get in with another password of the same key, or
    with a username that is no string. -/
theorem login_exact_iff (B : Bcrypt.Package) (Q : Query) (accounts : List Account)
    (users : List User) (h : Registered B accounts users) (body : Json) (session : Session) :
    Exact accounts body session (AuthController.login B Q users (.json body) session) ↔
      ¬ Confuses Q accounts users body := by
  have hst := registered_stored h
  obtain ⟨hsuccess, hbound, hfailure⟩ := @login_enters B Q accounts users body session hst
  constructor
  · intro hexact hconfuses
    cases hconfuses with
    | password a ha p hname hp hne hkey =>
        obtain ⟨u, hu, hau⟩ := hst.forth a ha
        have hfind : Q.findOne (body.get? "username") users = .ok (some u) := by
          rw [hname, Q.findOne_str, hst.find hu hau]
        have hok := hsuccess.mpr ⟨a, ha, u, p, hfind, hau.id, hp, hkey⟩
        obtain ⟨b, hb, hbname, hbpassword⟩ := hexact.success.mp hok
        rw [hname] at hbname
        obtain rfl := hst.account ha hb (Json.str.inj (Option.some.inj hbname))
        rw [hp] at hbpassword
        exact hne (Json.str.inj (Option.some.inj hbpassword))
    | username a ha u p hname hu hid hp hkey =>
        have hok := hsuccess.mpr ⟨a, ha, u, p, hu, hid, hp, hkey⟩
        obtain ⟨b, _, hbname, _⟩ := hexact.success.mp hok
        exact hname _ hbname
  · intro hno
    refine ⟨⟨fun hok => ?_, fun ⟨a, ha, hnamed⟩ => hsuccess.mpr ⟨a, ha, hnamed.enters hst ha⟩⟩,
      fun a ha hnamed => hbound a ha (hnamed.enters hst ha), hfailure⟩
    obtain ⟨a, ha, u, p, hfind, hid, hp, hkey⟩ := hsuccess.mp hok
    have hau := hst.of_id ha (Q.findOne_mem hfind) hid
    by_cases hstr : ∃ s, body.get? "username" = some (.str s)
    · obtain ⟨s, hs⟩ := hstr
      rw [hs, Q.findOne_str] at hfind
      have hname : s = a.username := by
        rw [← hau.username]
        exact (beq_iff_eq.mp (List.find?_some (p := fun u : User => u.username == s)
          (Except.ok.inj hfind))).symm
      rw [hname] at hs
      by_cases hpassword : p = a.password
      · exact ⟨a, ha, hs, by rw [hp, hpassword]⟩
      · exact absurd (.password a ha p hs hp hpassword hkey) hno
    · exact absurd (.username a ha u p (fun s hs => hstr ⟨s, hs⟩) hfind hid hp hkey) hno

/-- A filter of a string, and one of the operator `$ne`. -/
def stringOrNe : Query where
  findOne
    | some (.str s), users => .ok (users.find? (·.username == s))
    | some (.obj [("$ne", .str s)]), users => .ok (users.find? (·.username != s))
    | _, _ => .ok none
  findOne_str _ _ := rfl
  findOne_mem h := by
    split at h
    · exact List.mem_of_find?_eq_some (Except.ok.inj h)
    · exact List.mem_of_find?_eq_some (Except.ok.inj h)
    · cases h

def aliceId : ObjectId := ⟨List.replicate 24 'a', rfl, by decide⟩

def alice : Account := ⟨aliceId, "alice", "apple"⟩

def aliceUser : User := ⟨aliceId, "alice", Bcrypt.keyed.hash "salt" "apple"⟩

theorem registered_alice : Registered Bcrypt.keyed [alice] [aliceUser] := by
  have hs : AuthService.register Bcrypt.keyed aliceId "salt" (some (.str "alice"))
      (some (.str "apple")) [] = (.ok (), [aliceUser]) := by
    rfl
  exact .register .none aliceId "salt" "alice" "apple" hs

theorem login_exact_alice : Registered Bcrypt.keyed [alice] [aliceUser] ∧
    (Exact [alice] (.obj [("username", .str "alice"), ("password", .str "apple")]) ⟨none⟩
      (AuthController.login Bcrypt.keyed stringOrNe [aliceUser]
        (.json (.obj [("username", .str "alice"), ("password", .str "apple")])) ⟨none⟩) ↔
      ¬ Confuses stringOrNe [alice] [aliceUser]
        (.obj [("username", .str "alice"), ("password", .str "apple")])) :=
  ⟨registered_alice, login_exact_iff Bcrypt.keyed stringOrNe [alice] [aliceUser] registered_alice
    _ ⟨none⟩⟩

/-- The username `{ "$ne": "" }` selects Alice, and her password lets it in. -/
theorem operator_not_exact : ¬ ∀ (B : Bcrypt.Package) (Q : Query) (accounts : List Account)
    (users : List User), Registered B accounts users → ∀ body session,
    Exact accounts body session (AuthController.login B Q users (.json body) session) := by
  intro h
  have hexact := h Bcrypt.keyed stringOrNe [alice] [aliceUser] registered_alice
    (.obj [("username", .obj [("$ne", .str "")]), ("password", .str "apple")]) ⟨none⟩
  obtain ⟨a, _, hname, _⟩ := hexact.success.mp (by decide +kernel)
  cases hname

end Msa
