/-
  File:      BlogDemo/Board/Access.lean
  Subject:   WHO MAY DO WHAT TO A POST, request by request while the database is up: what API.md asks
             of the answers, and what the middleware, the controller, the service and the casts of
             Mongoose together make of them.

  * `Follows` -- the rows of API.md: reading needs no session, writing needs one and the author's;
    what is not there is 404, what violates the schema 4xx, and nothing is 5xx;
  * `Regular` -- the requests that get there: a GET with a session, an id that is an ObjectId, a post
    whose `authorId` prints as the user if it is the user and only then, and a body that Mongoose
    takes and that leaves a valid post;
  * **`follows_iff`** -- over any collection, a request is answered as API.md asks if and only if it
    is one of them.

  GET /posts/health is a route of its own, which API.md does not list.
-/
import BlogDemo.Board.Safety

namespace Board

open Js Atomic Attrs Mongoose

variable {M : Package} {s : Collection} {r : Request}

/-! ## 1. What API.md asks -/

/-- What a request comes to: its reply, and the collection after it. -/
abbrev Outcome := Reply × Collection

/-- The request, served while the database is up. -/
def served (M : Package) (s : Collection) (r : Request) : Outcome :=
  ((r.handler M).run (execute M) s).2

/-- `req.session.userId`, when there is one. -/
def session (userId : Option Json) : Option Json := userId.filter fun u => truthy (some u)

/-- The stored post that an id names. -/
def named (s : Collection) (id : String) : Option (ObjectId × Doc) :=
  (ObjectId.ofHex? id).bind fun k => (s.get k).map (k, ·)

def IsAuthor (u : Json) (post : Doc) : Prop := authorOf post = some u

/-- Answered with the status, and nothing changed. -/
def Refuses (status : Nat) (s : Collection) (out : Outcome) : Prop :=
  out.1.status = status ∧ out.2 = s

/-- Answered with a 4xx, and nothing changed. -/
def RefusesBody (s : Collection) (out : Outcome) : Prop :=
  400 ≤ out.1.status ∧ out.1.status < 500 ∧ out.2 = s

/-- A valid new post of the body. -/
structure NewPost (M : Package) (r : Request) (dto : Fields) (u : Json) (post : Doc) : Prop where
  built : PostSchema.construct M r.oid (assign dto "authorId" u) = .ok post
  valid : PostSchema.validate post = .ok ()

/-- The document that is saved of a new post. -/
def written (M : Package) (r : Request) (post : Doc) : Doc := M.toObject (stamp r.now post)

/-- The `_id` of the new post is free. -/
def Free (M : Package) (s : Collection) (r : Request) (post : Doc) : Prop :=
  s.get (insertId r.oid (written M r post)) = none

/-- The collection with the new document under its `_id`. -/
def inserted (s : Collection) (r : Request) (doc : Doc) : Collection :=
  s.put (insertId r.oid doc) (withId r.oid doc) (withId_id r.oid doc)

/-- A valid update of the post to `doc'`: the body is cast and applied, the `_id` stays, and every
    required path that has changed has a value. -/
structure ValidUpdate (M : Package) (r : Request) (dto : Fields) (k : ObjectId) (post doc' : Doc) :
    Prop where
  applied : ∃ update, PostSchema.updateOf M r.now dto = .ok update ∧
    M.apply update post = .ok doc'
  id : doc' "_id" = some (.objectId k)
  required : ∀ p ∈ PostSchema, doc' p.key = post p.key ∨ p.holds doc' = true

/-- Writing: without a session 401. -/
def Secured (s : Collection) (r : Request) (out : Outcome) (rest : Json → Prop) : Prop :=
  match session r.userId with
  | none => Refuses 401 s out
  | some u => rest u

/-- Changing a post: 404 where there is none, 403 for anyone but its author. -/
def Owned (s : Collection) (id : String) (u : Json) (out : Outcome)
    (rest : ObjectId → Doc → Prop) : Prop :=
  match named s id with
  | none => Refuses 404 s out
  | some (k, post) => (¬ IsAuthor u post → Refuses 403 s out) ∧ (IsAuthor u post → rest k post)

/-- **The rows of API.md.** -/
def Follows (M : Package) (s : Collection) (r : Request) (out : Outcome) : Prop :=
  match r.route with
  | .healthCheck => out.1.status < 500
  | .findAll => out = (⟨200, .posts s⟩, s)
  | .findOne id => match named s id with
    | none => Refuses 404 s out
    | some (_, post) => out = (⟨200, .post post⟩, s)
  | .create dto => Secured s r out fun u =>
    (∀ post, NewPost M r dto u post → Free M s r post →
      out = (⟨201, .post (written M r post)⟩, inserted s r (written M r post))) ∧
    ((¬ ∃ post, NewPost M r dto u post ∧ Free M s r post) → RefusesBody s out)
  | .update id dto => Secured s r out fun u => Owned s id u out fun k post =>
    (∀ doc', ValidUpdate M r dto k post doc' →
      ∃ hid, out = (⟨200, .post doc'⟩, s.put k doc' hid)) ∧
    ((¬ ∃ doc', ValidUpdate M r dto k post doc') → RefusesBody s out)
  | .delete id => Secured s r out fun u => Owned s id u out fun k _ =>
    out = (⟨200, .empty⟩, s.erase k)

/-! ## 2. The requests that get there -/

/-- The id is an ObjectId, and the `authorId` of the post it names prints as a text, of which the
    rest is asked: it is what the user is compared with. -/
def Addressed (M : Package) (s : Collection) (id : String) (rest : ObjectId → Doc → String → Prop) :
    Prop :=
  ObjectId.ofHex? id ≠ none ∧ ∀ k post, named s id = some (k, post) →
    ∃ text, authorIdToString M post = .ok text ∧ rest k post text

/-- **When a request is answered as asked**, from the request and the collection. A user who is
    compared in vain is refused, which an author may be when there is no valid update. -/
def Regular (M : Package) (s : Collection) (r : Request) : Prop :=
  match r.route with
  | .healthCheck => True
  | .findAll => session r.userId ≠ none
  | .findOne id => session r.userId ≠ none ∧ ObjectId.ofHex? id ≠ none
  | .create dto => ∀ u, session r.userId = some u → ∃ post, NewPost M r dto u post ∧ Free M s r post
  | .update id dto => ∀ u, session r.userId = some u → Addressed M s id fun k post text =>
    (u = .str text → IsAuthor u post ∧ ∃ doc', ValidUpdate M r dto k post doc') ∧
    (u ≠ .str text → IsAuthor u post → ¬ ∃ doc', ValidUpdate M r dto k post doc')
  | .delete id => ∀ u, session r.userId = some u → Addressed M s id fun _ post text =>
    u = .str text ↔ IsAuthor u post

/-! ## 3. Serving a request -/

theorem addressed_congr {id : String} {rest rest' : ObjectId → Doc → String → Prop}
    (h : ∀ k post text, named s id = some (k, post) → (rest k post text ↔ rest' k post text)) :
    Addressed M s id rest ↔ Addressed M s id rest' := by
  refine and_congr_right fun _ => forall_congr' fun k => forall_congr' fun post => ?_
  exact imp_congr_right fun hnamed => exists_congr fun text => and_congr_right fun _ =>
    h k post text hnamed

theorem served_unauthenticated (h : session r.userId = none) :
    served M s r = (⟨401, .message "Not authenticated"⟩, s) := by
  have hmiddleware : SessionAuthMiddleware r.userId =
      .error (UnauthorizedException "Not authenticated") := by
    unfold SessionAuthMiddleware
    split
    · rename_i u hu
      rw [if_neg]
      intro htruthy
      rw [hu, session, Option.filter_some, if_pos htruthy] at h
      cases h
    · rfl
  simp only [served, Request.handler, Prog.catching_lift, hmiddleware]
  rfl

theorem served_session {u : Json} (h : session r.userId = some u) :
    served M s r =
      ((Prog.catching (PostsController M r u) Thrown.reply).run (execute M) s).2 := by
  obtain ⟨hu, htruthy⟩ := Option.filter_eq_some_iff.mp h
  have hmiddleware : SessionAuthMiddleware r.userId = .ok u := by
    rw [hu]
    exact if_pos htruthy
  simp only [served, Request.handler, Prog.catching_lift, hmiddleware]

/-- A reply of 500 is not what anything asks for. -/
theorem not_refuses_500 {out : Outcome} (h : out.1.status = 500) {status : Nat}
    (hne : status ≠ 500) : ¬ Refuses status s out := by
  intro hrefuses
  exact hne (hrefuses.1.symm.trans h)

theorem not_refusesBody_500 {out : Outcome} (h : out.1.status = 500) : ¬ RefusesBody s out := by
  intro hrefuses
  have hlt : out.1.status < 500 := hrefuses.2.1
  omega

/-- A row of the bodies, when the reply is 500: it holds exactly of the bodies that are valid. -/
theorem body_iff_500 {out : Outcome} {done valid : Prop} (h : out.1.status = 500) (hno : ¬ valid) :
    done ∧ (¬ valid → RefusesBody s out) ↔ valid :=
  iff_of_false (fun hrow => not_refusesBody_500 h (hrow.2 hno)) hno

/-! ## 4. Reading -/

section Reading

theorem healthCheck_iff (hr : r.route = .healthCheck) :
    Follows M s r (served M s r) ↔ Regular M s r := by
  simp only [Follows, Regular, hr, iff_true]
  cases hu : session r.userId with
  | none =>
      rw [served_unauthenticated hu]
      exact (by decide : 401 < 500)
  | some u =>
      rw [served_session hu]
      simp only [PostsController, hr]
      exact (by decide : 200 < 500)

theorem findAll_iff (hr : r.route = .findAll) :
    Follows M s r (served M s r) ↔ Regular M s r := by
  simp only [Follows, Regular, hr]
  cases hu : session r.userId with
  | none =>
      rw [served_unauthenticated hu]
      refine iff_of_false (fun h => ?_) (not_not_intro rfl)
      cases h
  | some u =>
      rw [served_session hu]
      refine iff_of_true ?_ (Option.some_ne_none u)
      simp only [PostsController, hr]
      rfl

theorem findOne_iff {id : String} (hr : r.route = .findOne id) :
    Follows M s r (served M s r) ↔ Regular M s r := by
  simp only [Follows, Regular, hr]
  cases hu : session r.userId with
  | none =>
      rw [served_unauthenticated hu]
      refine iff_of_false (fun h => ?_) fun h => h.1 rfl
      split at h
      · cases h.1
      · cases h
  | some u =>
      rw [served_session hu]
      simp only [PostsController, hr, PostsService.findOne, bind_assoc, Prog.catching_lift,
        catching_exec, castId, named]
      cases hk : ObjectId.ofHex? id with
      | none =>
          refine iff_of_false (not_refuses_500 rfl (by decide)) fun h => h.2 rfl
      | some k =>
          refine iff_of_true ?_ ⟨Option.some_ne_none u, Option.some_ne_none k⟩
          simp only [Prog.run_call, execute, Option.bind_some]
          cases s.get k with
          | none => exact ⟨rfl, rfl⟩
          | some post => rfl

end Reading

/-! ## 5. Writing -/

section Writing

/-- A writing request is to be judged with a session only: without one it is always answered as
    asked. -/
theorem secured_iff {rest regular : Json → Prop}
    (h : ∀ u, session r.userId = some u → (rest u ↔ regular u)) :
    Secured s r (served M s r) rest ↔ ∀ u, session r.userId = some u → regular u := by
  unfold Secured
  cases hu : session r.userId with
  | none =>
      rw [served_unauthenticated hu]
      refine iff_of_true ⟨rfl, rfl⟩ ?_
      intro u h'
      cases h'
  | some u =>
      simp only [Option.some.injEq, forall_eq']
      exact h u hu

theorem create_iff {dto : Fields} (hr : r.route = .create dto) :
    Follows M s r (served M s r) ↔ Regular M s r := by
  simp only [Follows, Regular, hr]
  refine secured_iff fun u hu => ?_
  rw [served_session hu]
  simp only [PostsController, hr, PostsService.create, cast, bind_assoc, pure_bind,
    Prog.catching_lift, catching_exec, Prog.catching_pure]
  cases hpost : PostSchema.construct M r.oid (assign dto "authorId" u) with
  | error e =>
      have hno : ¬ ∃ post, NewPost M r dto u post ∧ Free M s r post := by
        intro hnew
        obtain ⟨post, hnew, _⟩ := hnew
        have hbuilt := hnew.built
        rw [hpost] at hbuilt
        cases hbuilt
      exact body_iff_500 rfl hno
  | ok post =>
      have hunique : ∀ post', NewPost M r dto u post' → post' = post := fun post' hnew =>
        Except.ok.inj (hnew.built.symm.trans hpost)
      simp only [Except.mapError]
      cases hvalid : PostSchema.validate post with
      | error e =>
          have hno : ¬ ∃ post, NewPost M r dto u post ∧ Free M s r post := by
            intro h'
            obtain ⟨post', hnew, _⟩ := h'
            have hok := hnew.valid
            rw [hunique post' hnew, hvalid] at hok
            cases hok
          exact body_iff_500 rfl hno
      | ok x =>
          simp only [Prog.run_call, execute, Collection.insertOne]
          cases hfree : s.get (insertId r.oid (M.toObject (stamp r.now post))) with
          | some doc =>
              have hno : ¬ ∃ post, NewPost M r dto u post ∧ Free M s r post := by
                intro h'
                obtain ⟨post', hnew, hnone⟩ := h'
                rw [hunique post' hnew, Free, written, hfree] at hnone
                cases hnone
              exact body_iff_500 rfl hno
          | none =>
              have hyes : ∃ post, NewPost M r dto u post ∧ Free M s r post :=
                ⟨post, ⟨hpost, hvalid⟩, hfree⟩
              refine iff_of_true ⟨fun post' hnew _ => ?_, fun hno => absurd hyes hno⟩ hyes
              rw [hunique post' hnew]
              rfl

/-- The reply to a user who is not the author. -/
def forbidden (s : Collection) : Outcome :=
  ((ForbiddenException "You are not the author of this post").reply, s)

/-- What becomes of a request that changes the post of an id: it reads the post and compares its
    author with the session before it goes on. -/
def guarded (M : Package) (s : Collection) (id : String) (u : Json)
    (next : ObjectId → Doc → Outcome) : Outcome :=
  match ObjectId.ofHex? id with
  | none => ((Thrown.failure (.cast "_id")).reply, s)
  | some k => match s.get k with
    | none => ((NotFoundException "Post not found").reply, s)
    | some post => match authorIdToString M post with
      | .error e => (e.reply, s)
      | .ok text => if u = .str text then next k post else forbidden s

/-- An author that cannot be printed is nobody's business: nothing catches the TypeError. -/
theorem authorIdToString_error {post : Doc} {e : Thrown} (h : authorIdToString M post = .error e) :
    e.reply.status = 500 := by
  unfold authorIdToString at h
  split at h
  · cases h
    rfl
  · rename_i v _
    cases hv : M.toString v with
    | ok text => rw [hv] at h; cases h
    | error message => rw [hv] at h; cases h; rfl

/-- The rows of a post that is there, whose author prints as the text, when the change is never
    answered 403. -/
theorem compared_iff {u : Json} {post : Doc} {text : String} {done : Outcome}
    {rest : Outcome → Prop} (hdone : done.1.status ≠ 403) :
    ((¬ IsAuthor u post → Refuses 403 s (if u = .str text then done else forbidden s)) ∧
      (IsAuthor u post → rest (if u = .str text then done else forbidden s))) ↔
    ((u = .str text → IsAuthor u post ∧ rest done) ∧
      (u ≠ .str text → IsAuthor u post → rest (forbidden s))) := by
  by_cases hu : u = .str text
  · simp only [if_pos hu]
    constructor
    · intro h
      -- who gets through is answered something else than 403, so is to be the author
      have hauthor : IsAuthor u post := by
        by_contra hnot
        exact hdone (h.1 hnot).1
      exact ⟨fun _ => ⟨hauthor, h.2 hauthor⟩, fun hne => absurd hu hne⟩
    · intro h
      obtain ⟨hauthor, hrest⟩ := h.1 hu
      exact ⟨fun hnot => absurd hauthor hnot, fun _ => hrest⟩
  · simp only [if_neg hu]
    constructor
    · exact fun h => ⟨fun heq => absurd heq hu, fun _ => h.2⟩
    · exact fun h => ⟨fun _ => ⟨rfl, rfl⟩, h.2 hu⟩

/-- The rows before the change itself, for the id and the post that is there, when the change is
    never answered 403. -/
theorem guarded_iff {id : String} {u : Json} {next : ObjectId → Doc → Outcome}
    {rest : Outcome → ObjectId → Doc → Prop} (hnext : ∀ k post, (next k post).1.status ≠ 403)
    (hrest : ∀ out k post, out.1.status = 500 → ¬ rest out k post) :
    Owned s id u (guarded M s id u next) (rest (guarded M s id u next)) ↔
      Addressed M s id fun k post text =>
        (u = .str text → IsAuthor u post ∧ rest (next k post) k post) ∧
        (u ≠ .str text → IsAuthor u post → rest (forbidden s) k post) := by
  unfold Owned Addressed named guarded
  cases hk : ObjectId.ofHex? id with
  | none => exact iff_of_false (not_refuses_500 rfl (by decide)) fun h => h.1 rfl
  | some k =>
      simp only [Option.bind_some]
      cases hpost : s.get k with
      | none =>
          refine iff_of_true ⟨rfl, rfl⟩ ⟨Option.some_ne_none k, fun k post h => ?_⟩
          cases h
      | some post =>
          simp only [Option.map_some, Option.some.injEq, Prod.mk.injEq, and_imp]
          cases htext : authorIdToString M post with
          | error e =>
              have h500 := authorIdToString_error htext
              refine iff_of_false (fun h => ?_) fun h => ?_
              · by_cases hauthor : IsAuthor u post
                · exact hrest _ k post h500 (h.2 hauthor)
                · exact not_refuses_500 h500 (by decide) (h.1 hauthor)
              · obtain ⟨text, hok, _⟩ := h.2 k post rfl rfl
                rw [htext] at hok
                cases hok
          | ok text =>
              refine (@compared_iff s u post text _ (rest · k post) (hnext k post)).trans
                ⟨fun h => ?_, fun h => ?_⟩
              · refine ⟨Option.some_ne_none k, ?_⟩
                rintro k' post' rfl rfl
                exact ⟨text, htext, h⟩
              · obtain ⟨text', hok, hcompared⟩ := h.2 k post rfl rfl
                obtain rfl := Except.ok.inj (htext.symm.trans hok)
                exact hcompared

/-- What becomes of the update itself. -/
def updated (M : Package) (s : Collection) (r : Request) (dto : Fields) (k : ObjectId) : Outcome :=
  match PostSchema.updateOf M r.now dto with
  | .error e => ((Thrown.failure e).reply, s)
  | .ok update => match s.updateOne M k update with
    | (.error e, s') => ((Thrown.failure e).reply, s')
    | (.ok none, s') => ((NotFoundException "Post not found").reply, s')
    | (.ok (some doc), s') => (⟨200, .post doc⟩, s')

theorem updated_ne_403 (dto : Fields) (k : ObjectId) : (updated M s r dto k).1.status ≠ 403 := by
  unfold updated
  split
  · exact (by decide : (500 : Nat) ≠ 403)
  · split
    · exact (by decide : (500 : Nat) ≠ 403)
    · exact (by decide : (404 : Nat) ≠ 403)
    · exact (by decide : (200 : Nat) ≠ 403)

theorem strictEq_text (t : String) (u : Json) :
    strictEq (some (.str t)) (some u) = decide (u = .str t) := by
  cases u with
  | str t' =>
      rw [Bool.eq_iff_iff]
      simp only [strictEq, beq_iff_eq, decide_eq_true_eq, Json.str.injEq]
      exact eq_comm
  | _ => simp [strictEq]

theorem served_ownPost {id : String} {u : Json} {rest : ObjectId → Async Reply}
    (hu : session r.userId = some u) (hbody : PostsController M r u = ownPost M id u rest) :
    served M s r = guarded M s id u fun k _ =>
      ((Prog.catching (rest k) Thrown.reply).run (execute M) s).2 := by
  rw [served_session hu, hbody]
  simp only [ownPost, PostsService.findOne, bind_assoc, Prog.catching_lift, catching_exec, castId,
    guarded]
  cases hk : ObjectId.ofHex? id with
  | none => rfl
  | some k =>
      simp only [Prog.run_call, execute]
      cases hpost : s.get k with
      | none => rfl
      | some post =>
          simp only [pure_bind, Prog.catching_lift]
          cases htext : authorIdToString M post with
          | error e => rfl
          | ok text =>
              simp only [strictEq_text, decide_eq_false_iff_not]
              by_cases hown : u = .str text
              · simp only [hown, not_true_eq_false, if_false, if_true, Prog.catching_lift]
              · simp only [hown, not_false_eq_true, if_true, if_false]
                rfl

theorem served_update {id : String} {dto : Fields} {u : Json} (hr : r.route = .update id dto)
    (hu : session r.userId = some u) :
    served M s r = guarded M s id u fun k _ => updated M s r dto k := by
  rw [served_ownPost hu (update_ownPost hr u)]
  congr 1
  funext k _
  simp only [updated, updateOwn, Prog.catching_lift, catching_exec, cast]
  cases PostSchema.updateOf M r.now dto with
  | error e => rfl
  | ok update =>
      simp only [Except.mapError, Prog.run_call, execute]
      obtain ⟨_ | _ | _, s'⟩ := s.updateOne M k update <;> rfl

theorem served_delete {id : String} {u : Json} (hr : r.route = .delete id)
    (hu : session r.userId = some u) : served M s r = guarded M s id u fun k _ =>
      (⟨200, .empty⟩, s.erase k) := by
  rw [served_ownPost hu (delete_ownPost hr u)]
  rfl

theorem delete_iff {id : String} (hr : r.route = .delete id) :
    Follows M s r (served M s r) ↔ Regular M s r := by
  simp only [Follows, Regular, hr]
  refine secured_iff fun u hu => ?_
  rw [served_delete hr hu]
  refine (@guarded_iff M s id u _ (fun out k _ => out = (⟨200, .empty⟩, s.erase k))
    (fun _ _ => (by decide : (200 : Nat) ≠ 403)) fun out k post h500 heq => ?_).trans ?_
  · rw [heq] at h500
    exact absurd h500 (by decide : (200 : Nat) ≠ 500)
  · refine addressed_congr fun k post text _ => ?_
    constructor
    · intro h
      refine ⟨fun hu => (h.1 hu).1, fun hauthor => ?_⟩
      by_contra hne
      exact absurd (congrArg (·.1.status) (h.2 hne hauthor)) (by decide : (403 : Nat) ≠ 200)
    · intro h
      exact ⟨fun hu => ⟨h.mp hu, rfl⟩, fun hne hauthor => absurd (h.mpr hauthor) hne⟩

/-- A valid update is made. -/
theorem updated_valid {dto : Fields} {k : ObjectId} {post doc' : Doc} (hpost : s.get k = some post)
    (hvalid : ValidUpdate M r dto k post doc') :
    updated M s r dto k = (⟨200, .post doc'⟩, s.put k doc' hvalid.id) := by
  obtain ⟨update, hupdate, happly⟩ := hvalid.applied
  simp only [updated, hupdate, Collection.updateOne, hpost, happly, dif_pos hvalid.id]

/-- No update is refused with a 4xx: it is made, or it ends in a 500. -/
theorem updated_not_refused {dto : Fields} {k : ObjectId} {post : Doc} (hpost : s.get k = some post) :
    ¬ RefusesBody s (updated M s r dto k) := by
  unfold updated
  cases PostSchema.updateOf M r.now dto with
  | error e => exact not_refusesBody_500 rfl
  | ok update =>
      simp only [Collection.updateOne, hpost]
      cases M.apply update post with
      | error e => exact not_refusesBody_500 rfl
      | ok doc =>
          -- the server minds the `_id`, and nobody minds a required path
          by_cases hid : doc "_id" = some (.objectId k)
          · simp only [dif_pos hid]
            exact fun hrefuses => absurd hrefuses.1 (by decide : ¬ 400 ≤ 200)
          · simp only [dif_neg hid]
            exact not_refusesBody_500 rfl

/-- What PUT makes of the post of its author, and asks of the change. -/
theorem updated_iff {dto : Fields} {k : ObjectId} {post : Doc} (hpost : s.get k = some post) :
    ((∀ doc', ValidUpdate M r dto k post doc' →
      ∃ hid, updated M s r dto k = (⟨200, .post doc'⟩, s.put k doc' hid)) ∧
    ((¬ ∃ doc', ValidUpdate M r dto k post doc') → RefusesBody s (updated M s r dto k))) ↔
    ∃ doc', ValidUpdate M r dto k post doc' := by
  constructor
  · intro h
    by_contra hno
    exact updated_not_refused hpost (h.2 hno)
  · intro hyes
    exact ⟨fun doc' hvalid => ⟨hvalid.id, updated_valid hpost hvalid⟩, fun hno => absurd hyes hno⟩

theorem named_get {id : String} {k : ObjectId} {post : Doc} (h : named s id = some (k, post)) :
    s.get k = some post := by
  obtain ⟨k', _, hk'⟩ := Option.bind_eq_some_iff.mp h
  obtain ⟨post', hget, heq⟩ := Option.map_eq_some_iff.mp hk'
  obtain ⟨rfl, rfl⟩ := Prod.mk.inj heq
  exact hget

theorem update_iff {id : String} {dto : Fields} (hr : r.route = .update id dto) :
    Follows M s r (served M s r) ↔ Regular M s r := by
  simp only [Follows, Regular, hr]
  refine secured_iff fun u hu => ?_
  rw [served_update hr hu]
  refine (@guarded_iff M s id u _ (fun out k post =>
    (∀ doc', ValidUpdate M r dto k post doc' →
      ∃ hid, out = (⟨200, .post doc'⟩, s.put k doc' hid)) ∧
    ((¬ ∃ doc', ValidUpdate M r dto k post doc') → RefusesBody s out))
    (fun k _ => updated_ne_403 dto k) fun out k post h500 hrow => ?_).trans ?_
  · obtain ⟨doc', hvalid⟩ := not_not.mp fun hno => not_refusesBody_500 h500 (hrow.2 hno)
    obtain ⟨_, heq⟩ := hrow.1 doc' hvalid
    rw [heq] at h500
    exact absurd h500 (by decide : (200 : Nat) ≠ 500)
  · refine addressed_congr fun k post text hnamed => ?_
    refine and_congr (imp_congr_right fun _ => and_congr_right fun _ =>
      updated_iff (named_get hnamed)) (imp_congr_right fun _ => imp_congr_right fun _ => ?_)
    constructor
    · rintro ⟨hdone, _⟩ ⟨doc', hvalid⟩
      obtain ⟨_, heq⟩ := hdone doc' hvalid
      exact absurd (congrArg (·.1.status) heq) (by decide : (403 : Nat) ≠ 200)
    · intro hno
      exact ⟨fun doc' hvalid => absurd ⟨doc', hvalid⟩ hno,
        fun _ => ⟨(by decide : 400 ≤ 403), (by decide : 403 < 500), rfl⟩⟩

end Writing

/-- **The access matrix**: over any collection, a request is answered as API.md asks if and only if
    it is regular. -/
theorem follows_iff (M : Package) (s : Collection) (r : Request) :
    Follows M s r (served M s r) ↔ Regular M s r := by
  cases hr : r.route with
  | healthCheck => exact healthCheck_iff hr
  | create dto => exact create_iff hr
  | findAll => exact findAll_iff hr
  | findOne id => exact findOne_iff hr
  | update id dto => exact update_iff hr
  | delete id => exact delete_iff hr

/-- All posts, asked for without a session. -/
def publicListing : Request := ⟨.findAll, none, thePost, 0⟩

/-- A post under an id that is no ObjectId, asked for with a session. -/
def badId : Request := ⟨.findOne "1", some ann, thePost, 0⟩

/-- A new post without a content. -/
def noContent : Request := ⟨.create [("title", .str "a")], some ann, thePost, 0⟩

/-- API.md asks for 200, 404 and a 4xx; the answers are 401, 500 and 500. -/
theorem not_follows :
    ¬ Follows strings Keyed.empty publicListing (served strings Keyed.empty publicListing) ∧
    ¬ Follows strings Keyed.empty badId (served strings Keyed.empty badId) ∧
    ¬ Follows strings Keyed.empty noContent (served strings Keyed.empty noContent) := by
  refine ⟨fun h => ?_, fun h => ?_, fun h => ?_⟩
  · cases h
  · cases h.1
  · obtain ⟨post, hnew, _⟩ := (create_iff rfl).mp h ann rfl
    have hbuilt := hnew.built
    have hvalid := hnew.valid
    obtain rfl := Except.ok.inj hbuilt
    revert hvalid
    decide

end Board
