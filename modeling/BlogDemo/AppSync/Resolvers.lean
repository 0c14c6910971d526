/-
  File:      BlogDemo/AppSync/Resolvers.lean
  Subject:   THE RESOLVERS OF THE APPSYNC API (functions/createPost.js, getPost.js, updatePost.js,
             deletePost.js, listPosts.js): each builds one DynamoDB operation from its context, or
             raises an error, and turns the operation's outcome into the answer of the GraphQL field.

  AppSync runs the operation on the posts table; the names and values of an update and of its
  condition are sent to DynamoDB together (`Expression.env`).
-/
import BlogDemo.Lib.Prog
import BlogDemo.Lib.Dynamo.Table

namespace AppSync

open Js Atomic Dynamo Attrs

/-! ## 1. Contexts, operations and answers -/

structure Args where
  id : Option Json := none
  title : Option Json := none
  content : Option Json := none

/-- What the resolvers read of `ctx`. -/
structure Context where
  /-- `ctx.identity?.username` -/
  username : Option String
  args : Args

/-- An error raised by `util.error(message, errorType)`. -/
structure Raised where
  message : String
  errorType : String
  deriving DecidableEq

structure Expression where
  expression : String
  expressionNames : List (String × String) := []
  expressionValues : List (String × Json) := []

/-- The placeholders of an expression. -/
def Expression.env (e : Expression) : Env Json := ⟨e.expressionNames, e.expressionValues⟩

abbrev MapValues := List (String × Json)

/-- The operation a request function returns. -/
inductive Operation where
  | getItem (key : MapValues)
  | putItem (key attributeValues : MapValues) (condition : Expression)
  | updateItem (key : MapValues) (update condition : Expression)
  | deleteItem (key : MapValues) (condition : Expression)

/-- `ctx.result`, or `ctx.error`. -/
abbrev Answer (_ : Operation) := Except Error (Option (Attrs Json))

/-- The answer of the GraphQL field. -/
inductive Reply where
  | data (result : Option (Attrs Json))
  | errors (e : Raised)

/-! ## 2. The utilities -/

/-- What `toMapValues` makes of `undefined`: a null, or nothing. -/
structure Util where
  undefined : Option Json

/-- `util.dynamodb.toMapValues` -/
def Util.toMapValues (util : Util) (fields : List (String × Option Json)) : MapValues :=
  fields.filterMap fun f => (f.2.orElse fun _ => util.undefined).map (f.1, ·)

/-- `const username = ctx.identity?.username` and the check after it. -/
def Context.user (ctx : Context) : Except Raised String :=
  match ctx.username with
  | some u => if u = "" then .error ⟨"Unauthorized", "Unauthorized"⟩ else .ok u
  | none => .error ⟨"Unauthorized", "Unauthorized"⟩

/-! ## 3. The request functions -/

section Request

variable (util : Util)

/-- `request` of createPost.js; `id` is `util.autoId()` and `now` is `util.time.nowISO8601()`. -/
def createPost.request (id now : String) (ctx : Context) : Except Raised Operation := do
  let username ← ctx.user
  return .putItem (util.toMapValues [("id", some (.str id))])
    (util.toMapValues [
      ("title", ctx.args.title),
      ("content", ctx.args.content),
      ("author", some (.str username)),
      ("createdAt", some (.str now))])
    { expression := "attribute_not_exists(id)" }

/-- `request` of getPost.js -/
def getPost.request (ctx : Context) : Except Raised Operation :=
  .ok (.getItem (util.toMapValues [("id", ctx.args.id)]))

/-- The condition of updatePost.js and deletePost.js. -/
def isAuthor (username : String) : Expression where
  expression := "#author = :u"
  expressionNames := [("#author", "author")]
  expressionValues := util.toMapValues [(":u", some (.str username))]

/-- `request` of updatePost.js -/
def updatePost.request (ctx : Context) : Except Raised Operation := do
  let username ← ctx.user
  let mut sets : List String := []
  let mut names : List (String × String) := []
  let mut values : List (String × Option Json) := []
  if let some title := ctx.args.title then
    sets := sets ++ ["#title = :title"]
    names := names ++ [("#title", "title")]
    values := values ++ [(":title", some title)]
  if let some content := ctx.args.content then
    sets := sets ++ ["#content = :content"]
    names := names ++ [("#content", "content")]
    values := values ++ [(":content", some content)]
  if sets.length = 0 then throw ⟨"Nothing to update", "BadRequest"⟩
  return .updateItem (util.toMapValues [("id", ctx.args.id)])
    { expression := "SET " ++ ", ".intercalate sets
      expressionNames := names
      expressionValues := util.toMapValues values }
    (isAuthor util username)

/-- `request` of deletePost.js -/
def deletePost.request (ctx : Context) : Except Raised Operation := do
  let username ← ctx.user
  return .deleteItem (util.toMapValues [("id", ctx.args.id)]) (isAuthor util username)

end Request

/-! ## 4. The response functions -/

/-- `response` of createPost.js and getPost.js: `ctx.result`, which is null after an error. -/
def resultOnly (r : Except Error (Option (Attrs Json))) : Reply :=
  match r with
  | .ok result => .data result
  | .error _ => .data none

/-- `ctx.error.type`: AppSync puts the service before the name of its error. -/
def errorType (e : Error) : String := "DynamoDB:" ++ e.name

/-- `response` of updatePost.js and deletePost.js -/
def authorResponse (r : Except Error (Option (Attrs Json))) : Reply :=
  match r with
  | .ok result => .data result
  | .error e =>
    if includes (errorType e) "ConditionalCheckFailedException" then
      .errors ⟨"You are not the author of this post", "Forbidden"⟩
    else .errors ⟨e.message, errorType e⟩

/-! ## 5. Requests -/

/-- A call of a resolver; for createPost, with the id and the time the utilities give it. -/
inductive Request where
  | createPost (id now : String) (ctx : Context)
  | getPost (ctx : Context)
  | updatePost (ctx : Context)
  | deletePost (ctx : Context)

def Request.ctx : Request → Context
  | .createPost _ _ ctx => ctx
  | .getPost ctx => ctx
  | .updatePost ctx => ctx
  | .deletePost ctx => ctx

/-- The operation of a request, or the error it raises before any. -/
def Request.operation (util : Util) : Request → Except Raised Operation
  | .createPost id now ctx => createPost.request util id now ctx
  | .getPost ctx => getPost.request util ctx
  | .updatePost ctx => updatePost.request util ctx
  | .deletePost ctx => deletePost.request util ctx

def Request.response : Request → Except Error (Option (Attrs Json)) → Reply
  | .createPost _ _ _ => resultOnly
  | .getPost _ => resultOnly
  | .updatePost _ => authorResponse
  | .deletePost _ => authorResponse

/-- A resolver from its request function to the answer of its field. -/
def Request.resolver (util : Util) (r : Request) : Prog Operation Answer Reply :=
  match r.operation util with
  | .error e => .ret (.errors e)
  | .ok op => .call op fun a => .ret (r.response a)

/-! ## 6. listPosts.js -/

/-- A Scan of the table, from where the last one stopped. -/
structure Scan where
  limit : Option Nat := none
  nextToken : Option String := none
  deriving DecidableEq

/-- `ctx.result` of a Scan: one page, and a token when there is more. -/
structure ScanResult where
  items : List (Attrs Json)
  nextToken : Option String

inductive ListReply where
  | data (items : List (Attrs Json))
  | errors (e : Raised)

/-- `request` of listPosts.js -/
def listPosts.request : Scan := {}

/-- `response` of listPosts.js: `ctx.result.items`; after an error `ctx.result` is null. -/
def listPosts.response (r : Except Error ScanResult) : ListReply :=
  match r with
  | .ok result => .data result.items
  | .error _ => .errors ⟨"Cannot read properties of null (reading 'items')", "Code"⟩

end AppSync
