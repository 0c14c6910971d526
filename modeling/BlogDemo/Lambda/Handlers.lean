/-
  File:      BlogDemo/Lambda/Handlers.lean
  Subject:   THE POST HANDLERS OF THE LAMBDA BACKEND (backend/functions/post, backend/utils):
             createPost, getPost, updatePost, deletePost over the DynamoDB tables Counter and Posts.

  A handler is a program of DynamoDB commands (`Handler`); each `await dynamoDB.send(…)` is one
  call, and what the call rejects with is thrown.
-/
import BlogDemo.Lib.Prog
import BlogDemo.Lib.Dynamo.Table

namespace Lambda

open Js Atomic Dynamo Attrs

/-! ## 1. utils/httpError.ts -/

structure HTTPError where
  statusCode : Nat
  message : String
  deriving DecidableEq, Repr

/-- `${message ? `: ${message}` : ''}` -/
def suffix : Option String → String
  | some m => if m = "" then "" else ": " ++ m
  | none => ""

def badRequest (message : String) : HTTPError := ⟨400, message⟩

def unAuthorized (message : Option String := none) : HTTPError :=
  ⟨401, "Unauthorized " ++ suffix message⟩

def forbidden (message : Option String := none) : HTTPError :=
  ⟨403, "Forbidden " ++ suffix message⟩

def notFound (message : Option String := none) : HTTPError :=
  ⟨404, "Not Found " ++ suffix message⟩

def internalServerError (message : Option String := none) : HTTPError :=
  ⟨500, "Internal Server Error " ++ suffix message⟩

def required (fields : List String) : String :=
  "Missing required fields: " ++ ", ".intercalate fields

/-- The value a response body is `JSON.stringify` of: a literal, or what a table returned. -/
inductive Payload where
  | json (value : Json)
  | attributes (item : Option (Attrs Json))

structure Response where
  statusCode : Nat
  body : Payload

def error (err : HTTPError) (code : String) : Response :=
  ⟨err.statusCode, .json (.obj [("error", .str err.message), ("code", .str code)])⟩

/-! ## 2. Requests and commands -/

/-- What the handlers read of an API Gateway event. -/
structure Event where
  /-- `event.pathParameters?.id` -/
  id : Option String
  body : Option Text
  /-- `event.requestContext.authorizer?.jwt?.claims` -/
  claims : Option Json

structure UpdateCommand where
  tableName : String
  key : String × Json
  updateExpression : String
  expressionAttributeNames : List (String × String)
  expressionAttributeValues : List (String × Json)
  returnValues : String

structure PutCommand where
  tableName : String
  item : List (String × Json)

structure GetCommand where
  tableName : String
  key : String × Json

structure DeleteCommand where
  tableName : String
  key : String × Json

inductive Command where
  | update (c : UpdateCommand)
  | put (c : PutCommand)
  | get (c : GetCommand)
  | delete (c : DeleteCommand)

/-- What a command is answered: `Item` of a GetCommand, `Attributes` of an UpdateCommand. -/
structure Output where
  item : Option (Attrs Json) := none
  attributes : Option (Attrs Json) := none

abbrev Answer (_ : Command) := Except Error Output

/-- A handler from its first statement to its response. -/
abbrev Handler := Prog Command Answer Response

/-- The body of a handler's `try` block. -/
abbrev Async := ExceptT Error (Prog Command Answer)

/-- `await dynamoDB.send(command)` -/
def send (command : Command) : Async Output := ExceptT.mk (Prog.send command)

/-- The document client refuses to marshall `undefined`. -/
def marshall : List (String × Option Json) → Except Error (List (String × Json))
  | [] => .ok []
  | (_, none) :: _ => .error ⟨"Error",
      "Pass options.removeUndefinedValues=true to remove undefined values from map/array/set."⟩
  | (a, some v) :: rest => (marshall rest).map ((a, v) :: ·)

/-- `JSON.parse(event.body ?? '{}')`, taken apart. -/
def parseBody (event : Event) : Except Error Json :=
  match parse (event.body.getD (.json (.obj []))) with
  | .ok v => destructure "title" v
  | .error e => .error e

/-! ## 3. post/createPost.ts -/

def counterUpdate : UpdateCommand where
  tableName := "Counter"
  key := ("name", .str "post")
  updateExpression := "SET #v = if_not_exists(#v, :init) + :inc"
  expressionAttributeNames := [("#v", "value")]
  expressionAttributeValues := [(":inc", .num (.int 1)), (":init", .num (.int 0))]
  returnValues := "UPDATED_NEW"

def getNextId : Async (Option Json) := do
  let result ← send (.update counterUpdate)
  return result.attributes.bind (· "value")

/-- `handler` of createPost.ts; `now` is `new Date().toISOString()`. -/
def createPost (now : String) (event : Event) : Handler :=
  Prog.catching (ε := Error) (do
    let data ← parseBody event
    let title := data.get? "title"
    let content := data.get? "content"
    if !truthy title || !truthy content then
      return error (badRequest (required ["title", "content"])) "ERR_CREATE_POST_BAD_REQUEST"
    let user := event.claims
    if !truthy user || !truthy (user.bind (·.get? "sub")) || !truthy (user.bind (·.get? "username")) then
      return error unAuthorized "ERR_CREATE_POST_UNAUTHORIZED"
    let nextId ← getNextId
    let item ← marshall [
      ("id", some (.str (string nextId))),
      ("title", title),
      ("content", content),
      ("userId", user.bind (·.get? "sub")),
      ("userName", user.bind (·.get? "username")),
      ("createdAt", some (.str now))]
    let _ ← send (.put ⟨"Posts", item⟩)
    return ⟨201, .json (.obj item)⟩)
    fun err => error (internalServerError err.message) "ERR_CREATE_POST_INTERNAL_SERVER_ERROR"

/-! ## 4. post/getPost.ts, post/updatePost.ts, post/deletePost.ts -/

/-- `!id` -/
def missing (id : Option String) : Bool := id.getD "" == ""

/-- `handler` of getPost.ts -/
def getPost (event : Event) : Handler :=
  Prog.catching (ε := Error) (do
    if missing event.id then
      return error (badRequest "Missing id parameter") "ERR_GET_POST_BAD_REQUEST_MISSING_ID"
    let result ← send (.get ⟨"Posts", ("id", .str (event.id.getD ""))⟩)
    if result.item.isNone then
      return error (notFound "Not found post") "ERR_GET_POST_NOT_FOUND"
    return ⟨200, .attributes result.item⟩)
    fun err => error (internalServerError err.message) "ERR_GET_POST_INTERNAL_SERVER_ERROR"

/-- The UpdateCommand of updatePost.ts. -/
def updateCommand (id : String) (values : List (String × Json)) : UpdateCommand where
  tableName := "Posts"
  key := ("id", .str id)
  updateExpression := "SET #t = :t, #c = :c"
  expressionAttributeNames := [("#t", "title"), ("#c", "content")]
  expressionAttributeValues := values
  returnValues := "ALL_NEW"

/-- `handler` of updatePost.ts -/
def updatePost (event : Event) : Handler :=
  Prog.catching (ε := Error) (do
    if missing event.id then
      return error (badRequest "Missing id parameter") "ERR_UPDATE_POST_BAD_REQUEST_MISSING_ID"
    let id := event.id.getD ""
    let data ← parseBody event
    let title := data.get? "title"
    let content := data.get? "content"
    if !truthy title || !truthy content then
      return error (badRequest (required ["title", "content"])) "ERR_UPDATE_POST_BAD_REQUEST"
    let user := event.claims
    if !truthy user then
      return error unAuthorized "ERR_UPDATE_POST_UNAUTHORIZED"
    let result ← send (.get ⟨"Posts", ("id", .str id)⟩)
    match result.item with
    | none => return error (notFound "Not found post") "ERR_UPDATE_POST_NOT_FOUND"
    | some item =>
      if !strictEq (item "userId") (user.bind (·.get? "sub")) then
        return error (forbidden "You do not have permission to update this post")
          "ERR_UPDATE_POST_FORBIDDEN"
      let values ← marshall [(":t", title), (":c", content)]
      let updated ← send (.update (updateCommand id values))
      return ⟨200, .attributes updated.attributes⟩)
    fun err => error (internalServerError err.message) "ERR_UPDATE_POST_INTERNAL_SERVER_ERROR"

/-- `handler` of deletePost.ts -/
def deletePost (event : Event) : Handler :=
  Prog.catching (ε := Error) (do
    if missing event.id then
      return error (badRequest "Missing id parameter") "ERR_DELETE_POST_BAD_REQUEST_MISSING_ID"
    let id := event.id.getD ""
    let user := event.claims
    if !truthy user || !truthy (user.bind (·.get? "sub")) || !truthy (user.bind (·.get? "username")) then
      return error unAuthorized "ERR_DELETE_POST_UNAUTHORIZED"
    let result ← send (.get ⟨"Posts", ("id", .str id)⟩)
    match result.item with
    | none => return error (notFound "Not found post") "ERR_DELETE_POST_NOT_FOUND"
    | some item =>
      if !strictEq (item "userId") (user.bind (·.get? "sub")) then
        return error (forbidden "You do not have permission to delete this post")
          "ERR_DELETE_POST_FORBIDDEN"
      let _ ← send (.delete ⟨"Posts", ("id", .str id)⟩)
      return ⟨200, .json (.obj [("message", .str "Post deleted successfully")])⟩)
    fun err => error (internalServerError err.message) "ERR_DELETE_POST_INTERNAL_SERVER_ERROR"

end Lambda
