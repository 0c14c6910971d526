/-
  File:      BlogDemo/Board/Requests.lean
  Subject:   THE BOARD'S REQUESTS BY THEIR CALLS. What each operation does to the collection, and
             for each route the operations a request makes, in order, with what it has checked
             before each.

  * `execute` -- an operation on the collection;
  * `ownPost`, `ownPost_calls` -- what PUT and DELETE have in common;
  * `create_calls`, `update_calls`, `delete_calls`, `read_calls` -- the calls of each route;
  * `created_spec` -- what a document that is about to be inserted holds;
  * `Leaves`, `apply_leaves` -- when an update leaves a path as it is, told from its JSON object.
-/
import BlogDemo.Board.Service

namespace Board

open Js Atomic Attrs Mongoose
open Prog (Final final_ret)

variable {M : Package}

/-! ## 1. Operations on the collection -/

/-- **An operation on the collection.** -/
def execute (M : Package) : Apply Op Answer Collection
  | .find, s => (.ok s, s)
  | .findById k, s => (.ok (s.get k), s)
  | .insertOne oid doc, s => s.insertOne oid doc
  | .findByIdAndUpdate k u, s => s.updateOne M k u
  | .findByIdAndDelete k, s => s.deleteOne k

/-! ## 2. The calls of a request -/

@[simp] theorem catching_exec {α : Type} (op : Op) (f : op.Out → ExceptT Thrown (Prog Op Answer) α)
    (handle : Thrown → α) :
    Prog.catching (exec op >>= f) handle = .call op fun r => match r with
      | .ok x => Prog.catching (f x) handle
      | .error e => .ret (handle (.failure e)) := by
  refine congrArg (Prog.call op) (funext fun r => ?_)
  cases r <;> rfl

/-- The user a post belongs to: its `authorId`, as a session has a user. -/
def authorOf (post : Doc) : Option Json := (post "authorId").bind Value.toJson?

/-- A user whose id is a text is recognised by it. -/
theorem authorIdToString_author {post : Doc} {t : String} (h : authorOf post = some (.str t)) :
    authorIdToString M post = .ok t := by
  obtain ⟨v, hv, ht⟩ := Option.bind_eq_some_iff.mp h
  rw [authorIdToString, hv]
  simp only [M.toString_text ht, Except.mapError]

theorem authorIdToString_congr {post post' : Doc} (h : post' "authorId" = post "authorId") :
    authorIdToString M post' = authorIdToString M post := by
  rw [authorIdToString, authorIdToString, h]

theorem session_ok {userId : Option Json} {u : Json} (h : SessionAuthMiddleware userId = .ok u) :
    userId = some u := by
  unfold SessionAuthMiddleware at h
  split at h
  · split at h
    · cases h; rfl
    · cases h
  · cases h

/-- **POST** inserts the new document, once it is valid. -/
theorem create_calls (r : Request) {dto : Fields} (hr : r.route = .create dto) :
    Final (r.handler M) ∨
    ∃ u post next, r.userId = some u ∧
      PostSchema.construct M r.oid (assign dto "authorId" u) = .ok post ∧
      PostSchema.validate post = .ok () ∧
      r.handler M = .call (.insertOne r.oid (M.toObject (stamp r.now post))) next ∧
      ∀ a, Final (next a) := by
  simp only [Request.handler, Prog.catching_lift]
  cases hu : SessionAuthMiddleware r.userId with
  | error e => exact Or.inl (final_ret _)
  | ok u =>
      simp only [PostsController, hr, PostsService.create, cast, bind_assoc, pure_bind,
        Prog.catching_lift, catching_exec, Prog.catching_pure]
      cases hpost : PostSchema.construct M r.oid (assign dto "authorId" u) with
      | error e => exact Or.inl (final_ret _)
      | ok post =>
          simp only [Except.mapError]
          cases hvalid : PostSchema.validate post with
          | error e => exact Or.inl (final_ret _)
          | ok x =>
              refine Or.inr ⟨u, post, _, session_ok hu, hpost, hvalid, rfl, fun a => ?_⟩
              cases a <;> exact final_ret _

/-- What PUT and DELETE have in common: the post is read and its author compared with the user. -/
def ownPost (M : Package) (id : String) (u : Json) (rest : ObjectId → Async Reply) :
    Async Reply := do
  let post ← PostsService.findOne id
  let authorId ← authorIdToString M post
  if strictEq (some (.str authorId)) (some u) = false then
    throw (ForbiddenException "You are not the author of this post")
  let oid ← castId id
  rest oid

/-- The reply to a post that was updated, if there was one. -/
def foundReply : Option Doc → Async Reply
  | none => throw (NotFoundException "Post not found")
  | some post => return ⟨200, .post post⟩

/-- What PUT does with a post of the user. -/
def updateOwn (M : Package) (r : Request) (dto : Fields) (oid : ObjectId) : Async Reply := do
  let update ← cast (PostSchema.updateOf M r.now dto)
  let updatedPost ← exec (.findByIdAndUpdate oid update)
  foundReply updatedPost

/-- What DELETE does with a post of the user. -/
def deleteOwn (oid : ObjectId) : Async Reply := do
  let _ ← exec (.findByIdAndDelete oid)
  return ⟨200, .empty⟩

theorem update_ownPost {r : Request} {id : String} {dto : Fields} (hr : r.route = .update id dto)
    (u : Json) : PostsController M r u = ownPost M id u (updateOwn M r dto) := by
  simp only [PostsController, hr, PostsService.update, ownPost, bind_assoc]
  refine bind_congr fun post => bind_congr fun authorId => ?_
  split
  · rfl
  · simp only [bind_assoc]
    refine bind_congr fun oid => bind_congr fun update => bind_congr fun updatedPost => ?_
    cases updatedPost with
    | none => rfl
    | some post => rfl

theorem delete_ownPost {r : Request} {id : String} (hr : r.route = .delete id) (u : Json) :
    PostsController M r u = ownPost M id u deleteOwn := by
  simp only [PostsController, hr, PostsService.delete, ownPost, bind_assoc]
  refine bind_congr fun post => bind_congr fun authorId => ?_
  split
  · rfl
  · simp only [bind_assoc, pure_bind]
    rfl

/-- **The rest runs on the post of the user**, which was read by its id. -/
theorem ownPost_calls (id : String) (u : Json) (rest : ObjectId → Async Reply) :
    Final (Prog.catching (ownPost M id u rest) Thrown.reply) ∨
    ∃ k next, Prog.catching (ownPost M id u rest) Thrown.reply = .call (.findById k) next ∧
      (∀ e, Final (next (.error e))) ∧ Final (next (.ok none)) ∧
      ∀ post, Final (next (.ok (some post))) ∨ ∃ text, authorIdToString M post = .ok text ∧
        u = .str text ∧ next (.ok (some post)) = Prog.catching (rest k) Thrown.reply := by
  simp only [ownPost, PostsService.findOne, bind_assoc, Prog.catching_lift, catching_exec]
  cases hk : castId id with
  | error e => exact Or.inl (final_ret _)
  | ok k =>
      refine Or.inr ⟨k, _, rfl, fun e => final_ret _, final_ret _, fun post => ?_⟩
      simp only [pure_bind, Prog.catching_lift]
      cases htext : authorIdToString M post with
      | error e => exact Or.inl (final_ret _)
      | ok text =>
          by_cases hown : strictEq (some (.str text)) (some u) = false
          · simp only [if_pos hown]
            exact Or.inl (final_ret _)
          · simp only [if_neg hown, Prog.catching_lift]
            rw [Bool.not_eq_false] at hown
            exact Or.inr ⟨text, rfl, (Option.some.inj (eq_of_strictEq hown)).symm, trivial⟩

/-- **PUT** reads the post, compares its author with the session, and updates it by its id. -/
theorem update_calls (r : Request) {id : String} {dto : Fields} (hr : r.route = .update id dto) :
    Final (r.handler M) ∨
    ∃ u k next, r.userId = some u ∧ r.handler M = .call (.findById k) next ∧
      (∀ e, Final (next (.error e))) ∧ Final (next (.ok none)) ∧
      ∀ post, Final (next (.ok (some post))) ∨ ∃ text update next',
        authorIdToString M post = .ok text ∧ u = .str text ∧ PostSchema.updateOf M r.now dto = .ok update ∧
        next (.ok (some post)) = .call (.findByIdAndUpdate k update) next' ∧
        ∀ a, Final (next' a) := by
  simp only [Request.handler, Prog.catching_lift]
  cases hu : SessionAuthMiddleware r.userId with
  | error e => exact Or.inl (final_ret _)
  | ok u =>
      simp only [update_ownPost hr]
      rcases ownPost_calls (M := M) id u (updateOwn M r dto) with
        hfinal | ⟨k, next, hcall, herror, hnone, hpost⟩
      · exact Or.inl hfinal
      · refine Or.inr ⟨u, k, next, session_ok hu, hcall, herror, hnone, fun post => ?_⟩
        rcases hpost post with hfinal | ⟨text, htext, hown, hrest⟩
        · exact Or.inl hfinal
        · simp only [hrest, updateOwn, cast, Prog.catching_lift, catching_exec]
          cases hup : PostSchema.updateOf M r.now dto with
          | error e => exact Or.inl (final_ret _)
          | ok update =>
              refine Or.inr ⟨text, update, _, htext, hown, rfl, rfl, fun a => ?_⟩
              obtain e | _ | updated := a <;> exact final_ret _

/-- **DELETE** reads the post, compares its author with the session, and deletes it by its id. -/
theorem delete_calls (r : Request) {id : String} (hr : r.route = .delete id) :
    Final (r.handler M) ∨
    ∃ u k next, r.userId = some u ∧ r.handler M = .call (.findById k) next ∧
      (∀ e, Final (next (.error e))) ∧ Final (next (.ok none)) ∧
      ∀ post, Final (next (.ok (some post))) ∨ ∃ text next',
        authorIdToString M post = .ok text ∧ u = .str text ∧
        next (.ok (some post)) = .call (.findByIdAndDelete k) next' ∧ ∀ a, Final (next' a) := by
  simp only [Request.handler, Prog.catching_lift]
  cases hu : SessionAuthMiddleware r.userId with
  | error e => exact Or.inl (final_ret _)
  | ok u =>
      simp only [delete_ownPost hr]
      rcases ownPost_calls (M := M) id u deleteOwn with hfinal | ⟨k, next, hcall, herror, hnone, hpost⟩
      · exact Or.inl hfinal
      · refine Or.inr ⟨u, k, next, session_ok hu, hcall, herror, hnone, fun post => ?_⟩
        rcases hpost post with hfinal | ⟨text, htext, hown, hrest⟩
        · exact Or.inl hfinal
        · simp only [hrest, deleteOwn, catching_exec]
          refine Or.inr ⟨text, _, htext, hown, rfl, fun a => ?_⟩
          cases a <;> exact final_ret _

/-- **The GET routes** read at most once. -/
theorem read_calls (r : Request)
    (hr : r.route = .healthCheck ∨ r.route = .findAll ∨ ∃ id, r.route = .findOne id) :
    Final (r.handler M) ∨ ∃ op next, (op = .find ∨ ∃ k, op = .findById k) ∧
      r.handler M = .call op next ∧ ∀ a, Final (next a) := by
  simp only [Request.handler, Prog.catching_lift]
  cases hu : SessionAuthMiddleware r.userId with
  | error e => exact Or.inl (final_ret _)
  | ok u =>
      rcases hr with hr | hr | ⟨id, hr⟩
      · simp only [PostsController, hr]
        exact Or.inl (final_ret _)
      · simp only [PostsController, hr, PostsService.findAll]
        refine Or.inr ⟨.find, _, Or.inl rfl, rfl, fun a => ?_⟩
        cases a <;> exact final_ret _
      · simp only [PostsController, hr, PostsService.findOne, bind_assoc, Prog.catching_lift,
          catching_exec]
        cases hk : castId id with
        | error e => exact Or.inl (final_ret _)
        | ok k =>
            refine Or.inr ⟨.findById k, _, Or.inr ⟨k, rfl⟩, rfl, fun a => ?_⟩
            obtain e | _ | post := a <;> exact final_ret _

/-! ## 3. What is inserted -/

/-- A valid document has a value on every required path. -/
theorem validate_holds {S : Schema} {doc : Doc} (h : S.validate doc = .ok ()) :
    ∀ p ∈ S, p.holds doc = true := by
  unfold Schema.validate at h
  split at h
  · cases h
  · rename_i hnone
    intro p hp
    simpa using List.find?_eq_none.mp hnone p hp

/-- Of the fields a POST builds its document of, the session's user is the only author; -/
theorem mem_assign_self {fields : Fields} {key : String} {u v : Json}
    (h : (key, v) ∈ assign fields key u) : v = u := by
  unfold assign at h
  split at h
  · obtain ⟨f, _, hf⟩ := List.mem_map.mp h
    split at hf
    · exact (congrArg Prod.snd hf).symm
    · rename_i hne
      exact absurd (congrArg Prod.fst hf) hne
  · rename_i hno
    rcases List.mem_append.mp h with hmem | hmem
    · exact absurd (List.any_eq_true.mpr ⟨_, hmem, beq_self_eq_true key⟩) hno
    · rw [List.mem_singleton] at hmem
      exact congrArg Prod.snd hmem

/-- every other field is one of its body. -/
theorem mem_assign_of_ne {fields : Fields} {key a : String} {u v : Json} (ha : a ≠ key)
    (h : (a, v) ∈ assign fields key u) : (a, v) ∈ fields := by
  unfold assign at h
  split at h
  · obtain ⟨f, hf, heq⟩ := List.mem_map.mp h
    split at heq
    · exact absurd (congrArg Prod.fst heq).symm ha
    · exact heq ▸ hf
  · rcases List.mem_append.mp h with hmem | hmem
    · exact hmem
    · rw [List.mem_singleton] at hmem
      exact absurd (congrArg Prod.fst hmem) ha

/-- A path of a new document: unset, or the cast of a field with its name. -/
theorem construct_apply {S : Schema} {oid : ObjectId} {fields : Fields} {doc : Doc}
    (h : S.construct M oid fields = .ok doc) (a : String) :
    doc a = Attrs.of [("_id", .objectId oid)] a ∨ ∃ v type, (a, v) ∈ fields ∧
      S.type? a = some type ∧ doc a = M.cast type v ∧ doc a ≠ none := by
  unfold Schema.construct at h
  cases hc : S.castFields M fields with
  | error e => rw [hc] at h; cases h
  | ok sets =>
      rw [hc] at h
      cases h
      rcases applySets_or (Attrs.of [("_id", .objectId oid)]) sets a with hs | ⟨x, hx, hs⟩
      · exact Or.inl hs
      · obtain ⟨v, type, hv, ht, hcast⟩ := castFields_spec hc (a, x) hx
        exact Or.inr ⟨v, type, hv, ht, hs.trans hcast.symm,
          ne_of_eq_of_ne hs (Option.some_ne_none x)⟩

theorem stamp_of_ne (now : Int) (doc : Doc) {a : String} (hc : a ≠ "createdAt")
    (hu : a ≠ "updatedAt") (hv : a ≠ "__v") : stamp now doc a = doc a := by
  unfold stamp
  exact applySets_of_notMem (by simp [hc, hu, hv]) doc

/-- The author of a new document is the session's user, not cast. -/
theorem created_author {oid : ObjectId} {dto : Fields} {u : Json} {post : Doc} {now : Int}
    (h : PostSchema.construct M oid (assign dto "authorId" u) = .ok post)
    (hv : PostSchema.validate post = .ok ()) :
    M.toObject (stamp now post) "authorId" = M.saved (.ofJson u) := by
  have hpost : stamp now post "authorId" = some (.ofJson u) := by
    rw [stamp_of_ne now post (by decide) (by decide) (by decide)]
    rcases construct_apply h "authorId" with hnone | ⟨v, type, hmem, ht, hcast, _⟩
    · have hholds := validate_holds hv ⟨"authorId", .mixed, true⟩ (by simp [PostSchema, Schema.ofProps])
      rw [SchemaPath.holds, hnone] at hholds
      cases hholds
    · have htype : type = .mixed := by
        have hpath : PostSchema.type? "authorId" = some .mixed := by decide
        exact Option.some.inj (ht.symm.trans hpath)
      subst htype
      obtain rfl := mem_assign_self hmem
      exact hcast.trans (M.cast_mixed v)
  rw [toObject_apply hpost, Option.bind_some]

/-- Without an `_id` of its own, the body leaves the choice of the `_id` to the server. -/
theorem created_id {oid : ObjectId} {dto : Fields} {u : Json} {post : Doc} {now : Int}
    (h : PostSchema.construct M oid (assign dto "authorId" u) = .ok post)
    (hdto : ∀ v, ("_id", v) ∈ dto → v = .null) :
    insertId oid (M.toObject (stamp now post)) = oid := by
  rw [insertId_toObject, insertId, stamp_of_ne now post (by decide) (by decide) (by decide)]
  rcases construct_apply h "_id" with hnone | ⟨v, type, hmem, ht, hcast, _⟩
  · rw [hnone]
    rfl
  · rw [hcast, hdto v (mem_assign_of_ne (by decide) hmem)]
    rfl

/-- Without a date of its own, the body leaves the date to the server. -/
theorem created_date {oid : ObjectId} {dto : Fields} {u : Json} {post : Doc} {now : Int}
    (h : PostSchema.construct M oid (assign dto "authorId" u) = .ok post)
    (hdto : ∀ v, ("createdAt", v) ∈ dto → M.cast .date v = some .null) :
    M.toObject (stamp now post) "createdAt" = some (.date now) := by
  have hpost : post "createdAt" = none ∨ post "createdAt" = some .null := by
    rcases construct_apply h "createdAt" with hnone | ⟨v, type, hmem, ht, hcast, _⟩
    · exact Or.inl hnone
    · have htype : type = .date := by
        have hpath : PostSchema.type? "createdAt" = some .date := by decide
        exact Option.some.inj (ht.symm.trans hpath)
      subst htype
      exact Or.inr (hcast.trans (hdto v (mem_assign_of_ne (by decide) hmem)))
  have hstamp : stamp now post "createdAt" = some (.date now) := by
    unfold stamp
    rcases hpost with hnone | hnull
    · rw [hnone]
      rfl
    · rw [hnull]
      rfl
  rw [toObject_apply hstamp]
  rfl

/-! ## 4. What an update leaves alone -/

/-- The JSON object of an update leaves the path `a` of a document as it is: it does not name it,
    or names it with the value it has. -/
def Leaves (M : Package) (a : String) (now : Int) (dto : Fields) (doc : Doc) : Prop :=
  if (unstamped dto).any isNested then
    ∀ f doc', M.nested dto now = .ok f → f doc = .ok doc' → doc' a = doc a
  else ∀ v type, (a, v) ∈ unstamped dto → PostSchema.type? a = some type → M.cast type v = doc a

theorem apply_leaves {a : String} {now : Int} {dto : Fields} {doc doc' : Doc} {u : Update}
    (hl : Leaves M a now dto doc) (ha : a ≠ "updatedAt")
    (hu : PostSchema.updateOf M now dto = .ok u) (hd : M.apply u doc = .ok doc') :
    doc' a = doc a := by
  unfold Schema.updateOf at hu
  unfold Leaves at hl
  by_cases hn : (unstamped dto).any isNested = true
  · rw [if_pos hn] at hu hl
    cases hf : M.nested dto now with
    | error e => rw [hf] at hu; cases hu
    | ok f =>
        rw [hf] at hu
        cases hu
        simp only [Package.apply, hf] at hd
        exact hl f doc' hf hd
  · rw [if_neg hn] at hu hl
    cases hc : PostSchema.castFields M (unstamped dto) with
    | error e => rw [hc] at hu; cases hu
    | ok sets =>
        rw [hc] at hu
        cases hu
        cases hd
        rcases applySets_or doc (sets ++ [("updatedAt", .date now)]) a with hs | ⟨x, hx, hs⟩
        · exact hs
        · rcases List.mem_append.mp hx with hx | hx
          · obtain ⟨v, type, hv, ht, hcast⟩ := castFields_spec hc (a, x) hx
            rw [hs, ← hl v type hv ht, hcast]
          · rw [List.mem_singleton] at hx
            exact absurd (congrArg Prod.fst hx) ha

end Board
