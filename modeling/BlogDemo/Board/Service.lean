/-
  File:      BlogDemo/Board/Service.lean
  Subject:   THE POSTS OF THE BOARD SERVICE (board-service/src): entity, service, controller and the
             session middleware in front of it, over one MongoDB collection.

  A request is a program of collection operations (`Handler`), from the middleware to the reply;
  what an operation rejects with is thrown, and Nest turns what nobody catches into a 500.
-/
import BlogDemo.Lib.Prog
import BlogDemo.Lib.Mongoose

namespace Board

open Js Atomic Attrs Mongoose

/-! ## 1. posts/post.entity.ts -/

/-- `Types.ObjectId` is the class of the driver and no type of a schema, so that Nest makes a Mixed
    path of it: an `authorId` is stored as it is given. -/
def PostSchema : Schema := Schema.ofProps [
  ⟨"title", .string, true⟩,
  ⟨"content", .string, true⟩,
  ⟨"authorId", .mixed, true⟩]

/-! ## 2. Operations, replies and errors -/

abbrev Doc := Attrs Value

/-- The operations on the collection, each one call to MongoDB. -/
inductive Op where
  | find
  | findById (id : ObjectId)
  /-- `oid` is the `_id` the driver adds to a document without one. -/
  | insertOne (oid : ObjectId) (doc : Doc)
  | findByIdAndUpdate (id : ObjectId) (update : Update)
  | findByIdAndDelete (id : ObjectId)

/-- What an operation is answered: `find` with all documents, the others with one or none. -/
def Op.Out : Op → Type
  | .find => Collection
  | .insertOne _ _ => Unit
  | _ => Option Doc

abbrev Answer (op : Op) := Except Failure op.Out

/-- What a request throws: a Nest exception, or anything else. -/
inductive Thrown where
  | http (status : Nat) (message : String)
  | failure (e : Failure)
  | typeError (message : String)

def NotFoundException (message : String) : Thrown := .http 404 message

def ForbiddenException (message : String) : Thrown := .http 403 message

def UnauthorizedException (message : String) : Thrown := .http 401 message

/-- The body of a reply. -/
inductive Body where
  | empty
  | status (value : String)
  | post (doc : Doc)
  /-- All posts, the newest first. -/
  | posts (all : Collection)
  | message (text : String)

structure Reply where
  status : Nat
  body : Body

/-- Nest's exception filter. -/
def Thrown.reply : Thrown → Reply
  | .http status message => ⟨status, .message message⟩
  | _ => ⟨500, .message "Internal server error"⟩

abbrev Handler := Prog Op Answer Reply

abbrev Async := ExceptT Thrown (Prog Op Answer)

/-- `await` of an operation. -/
def exec (op : Op) : Async op.Out :=
  ExceptT.mk (Prog.send op >>= fun r => .ret (r.mapError .failure))

def cast {α : Type} (r : Except Failure α) : Except Thrown α := r.mapError .failure

/-- `_id` in a query is cast from the text of the path. -/
def castId (id : String) : Except Thrown ObjectId :=
  match ObjectId.ofHex? id with
  | some o => .ok o
  | none => .error (.failure (.cast "_id"))

/-! ## 3. posts/posts.service.ts -/

section Service

variable (M : Package)

def PostsService.create (oid : ObjectId) (now : Int) (dto : Fields) (authorId : Json) :
    Async Doc := do
  let post ← cast (PostSchema.construct M oid (assign dto "authorId" authorId))
  -- `post.save()`
  cast (PostSchema.validate post)
  let _ ← exec (.insertOne oid (M.toObject (stamp now post)))
  return M.toObject (stamp now post)

def PostsService.findAll : Async Collection := exec .find

def PostsService.findOne (id : String) : Async Doc := do
  let oid ← castId id
  let post ← exec (.findById oid)
  match post with
  | none => throw (NotFoundException "Post not found")
  | some post => return post

/-- `post.authorId.toString()` -/
def authorIdToString (post : Doc) : Except Thrown String :=
  match post "authorId" with
  | none => .error (.typeError "Cannot read properties of undefined (reading 'toString')")
  | some v => (M.toString v).mapError .typeError

def PostsService.update (now : Int) (id : String) (updateData : Fields) (userId : Json) :
    Async Doc := do
  let post ← PostsService.findOne id
  let authorId ← authorIdToString M post
  if strictEq (some (.str authorId)) (some userId) = false then
    throw (ForbiddenException "You are not the author of this post")
  let oid ← castId id
  let update ← cast (PostSchema.updateOf M now updateData)
  let updatedPost ← exec (.findByIdAndUpdate oid update)
  match updatedPost with
  | none => throw (NotFoundException "Post not found")
  | some post => return post

def PostsService.delete (id : String) (userId : Json) : Async Unit := do
  let post ← PostsService.findOne id
  let authorId ← authorIdToString M post
  if strictEq (some (.str authorId)) (some userId) = false then
    throw (ForbiddenException "You are not the author of this post")
  let oid ← castId id
  let _ ← exec (.findByIdAndDelete oid)
  return ()

end Service

/-! ## 4. posts/posts.controller.ts and middleware/session-auth.middleware.ts -/

inductive Route where
  | healthCheck
  | create (dto : Fields)
  | findAll
  | findOne (id : String)
  | update (id : String) (dto : Fields)
  | delete (id : String)

/-- A request, with the `_id` and the time the server would choose for it. -/
structure Request where
  route : Route
  /-- `req.session?.userId` -/
  userId : Option Json
  oid : ObjectId
  now : Int

/-- The controller's method for a request whose session has a user. -/
def PostsController (M : Package) (r : Request) (userId : Json) : Async Reply :=
  match r.route with
  | .healthCheck => return ⟨200, .status "ok"⟩
  | .create dto => do
    let post ← PostsService.create M r.oid r.now dto userId
    return ⟨201, .post post⟩
  | .findAll => do
    let posts ← PostsService.findAll
    return ⟨200, .posts posts⟩
  | .findOne id => do
    let post ← PostsService.findOne id
    return ⟨200, .post post⟩
  | .update id dto => do
    let post ← PostsService.update M r.now id dto userId
    return ⟨200, .post post⟩
  | .delete id => do
    PostsService.delete M id userId
    return ⟨200, .empty⟩

/-- `SessionAuthMiddleware.use`, for all of `posts`. -/
def SessionAuthMiddleware (userId : Option Json) : Except Thrown Json :=
  match userId with
  | some u => if truthy (some u) then .ok u else .error (UnauthorizedException "Not authenticated")
  | none => .error (UnauthorizedException "Not authenticated")

/-- A request from the middleware to its reply. -/
def Request.handler (M : Package) (r : Request) : Handler :=
  Prog.catching (ε := Thrown) (do
    let userId ← SessionAuthMiddleware r.userId
    PostsController M r userId)
    Thrown.reply

end Board
