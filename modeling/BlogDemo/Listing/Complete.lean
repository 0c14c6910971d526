/-
  File:      BlogDemo/Listing/Complete.lean
  Subject:   LISTINGS OF WHOLE TABLES: GET /posts of the Lambda backend (post/getPosts.ts), listPosts of
             the AppSync API (functions/listPosts.js) and GET /db of the ECS app (index.js), over
             services that answer in pages.

  Each of the three asks once and reads no continuation key.

  * `getPosts`, `db` -- the source, as programs of one call; `listPosts` is in AppSync/Resolvers;
  * **`listing_iff`** -- whatever is stored and however it is split into pages, each answer lists all
    of it, once, if and only if every page after the first is empty.
-/
import BlogDemo.Lib.Paging
import BlogDemo.Lambda.Handlers
import BlogDemo.AppSync.Resolvers

namespace Listing

open Js Atomic Dynamo Attrs Paging

/-! ## 1. post/getPosts.ts -/

structure ScanCommand where
  tableName : String
  exclusiveStartKey : Option (Attrs Json) := none

/-- `result` of a ScanCommand -/
structure ScanOutput where
  items : Option (List (Attrs Json))
  lastEvaluatedKey : Option (Attrs Json)

/-- The value the body of GET /posts is `JSON.stringify` of. -/
inductive PostsBody where
  | items (items : Option (List (Attrs Json)))
  | payload (p : Lambda.Payload)

structure PostsResponse where
  statusCode : Nat
  body : PostsBody

abbrev ScanAnswer (_ : ScanCommand) := Except Error ScanOutput

def getPosts : Prog ScanCommand ScanAnswer PostsResponse :=
  Prog.catching (do
    let result ← ExceptT.mk (Prog.send { tableName := "Posts" })
    return ⟨200, .items result.items⟩)
  fun err =>
    let r := Lambda.error (Lambda.internalServerError (some err.message))
      "ERR_GET_POSTS_INTERNAL_SERVER_ERROR"
    ⟨r.statusCode, .payload r.body⟩

/-! ## 2. index.js of the ECS app -/

structure ListTablesInput where
  exclusiveStartTableName : Option String := none

/-- `tables` of a ListTables call -/
structure ListTablesOutput where
  tableNames : Option (List String)
  lastEvaluatedTableName : Option String

/-- `res.status(status).json(body)` -/
structure DbResponse where
  status : Nat
  body : Json

abbrev TablesAnswer (_ : ListTablesInput) := Except Error ListTablesOutput

/-- GET /db -/
def db : Prog ListTablesInput TablesAnswer DbResponse :=
  Prog.catching (do
    let tables ← ExceptT.mk (Prog.send {})
    let tableList := tables.tableNames.getD []
    if tableList.length = 0 then
      return ⟨200, .obj [("db", .str "no-tables"),
        ("message", .str "DynamoDB를 생성하거나 최소 1개 이상의 테이블을 생성하세요.")]⟩
    return ⟨200, .obj [("db", .str "connected"), ("tables", .arr (tableList.map .str))]⟩)
  fun err => ⟨500, .obj [("db", .str "error"), ("message", .str err.message)]⟩

/-! ## 3. The services -/

/-- A DynamoDB that answers a Scan with the pages of its tables. -/
def scanned (scan : String → Service (Attrs Json) (Attrs Json)) :
    Apply ScanCommand ScanAnswer Unit := fun command s =>
  let page := scan command.tableName command.exclusiveStartKey
  (.ok ⟨some page.entries, page.next⟩, s)

/-- `ctx.result` of the AppSync data source. -/
def scanResult (scan : Service String (Attrs Json)) (request : AppSync.Scan) : AppSync.ScanResult :=
  let page := scan request.nextToken
  ⟨page.entries, page.next⟩

/-- A DynamoDB that answers ListTables with its pages. -/
def listed (names : Service String String) : Apply ListTablesInput TablesAnswer Unit :=
  fun input s =>
    let page := names input.exclusiveStartTableName
    (.ok ⟨some page.entries, page.next⟩, s)

/-- The items of a table. -/
def Stored (t : Table "id" Json) : Set (Attrs Json) := { item | ∃ k, t.get k = some item }

/-! ## 4. What the answers list -/

/-- The answer of GET /posts is a list of all posts. -/
def PostsResponse.Complete (r : PostsResponse) (t : Table "id" Json) : Prop :=
  ∃ items, r = ⟨200, .items (some items)⟩ ∧ Lists items (Stored t)

/-- The answer of listPosts is a list of all posts. -/
def FieldComplete (r : AppSync.ListReply) (t : Table "id" Json) : Prop :=
  ∃ items, r = .data items ∧ Lists items (Stored t)

def asName : Json → Option String
  | .str name => some name
  | _ => none

/-- The table names that a body shows. -/
def tableNames (body : Json) : List String :=
  match body.get? "tables" with
  | some (.arr xs) => xs.filterMap asName
  | _ => []

theorem filterMap_asName (xs : List String) : (xs.map Json.str).filterMap asName = xs := by
  rw [List.filterMap_map]
  exact List.filterMap_some

/-- The answer of GET /db is a list of all table names. -/
def DbResponse.Complete (r : DbResponse) (tables : Set String) : Prop :=
  r.status = 200 ∧ Lists (tableNames r.body) tables

section Complete

variable {scan : String → Service (Attrs Json) (Attrs Json)} {sync : Service String (Attrs Json)}
  {names : Service String String} {t : Table "id" Json} {tables : Set String}

theorem getPosts_complete (h : Splits (scan "Posts") (Stored t)) :
    (getPosts.run (scanned scan) ()).2.1.Complete t ↔ RestEmpty (scan "Posts") := by
  rw [← h.first_iff]
  constructor
  · intro h'
    obtain ⟨items, hitems, hall⟩ := h'
    cases hitems
    exact hall
  · intro hall
    exact ⟨_, rfl, hall⟩

theorem listPosts_complete (h : Splits sync (Stored t)) :
    FieldComplete (AppSync.listPosts.response (.ok (scanResult sync AppSync.listPosts.request))) t ↔
      RestEmpty sync := by
  rw [← h.first_iff]
  constructor
  · intro h'
    obtain ⟨items, hitems, hall⟩ := h'
    cases hitems
    exact hall
  · intro hall
    exact ⟨_, rfl, hall⟩

/-- The names that GET /db shows are those of the first page. -/
theorem db_tableNames : (db.run (listed names) ()).2.1.status = 200 ∧
    tableNames (db.run (listed names) ()).2.1.body = (names none).entries := by
  simp only [db, Prog.catching_send, Prog.run_call, listed, Option.getD_some, Prog.catching_ite,
    Prog.catching_pure, List.length_eq_zero_iff]
  split
  · rename_i hnone
    rw [hnone]
    exact ⟨rfl, rfl⟩
  · exact ⟨rfl, filterMap_asName _⟩

theorem db_complete (h : Splits names tables) :
    (db.run (listed names) ()).2.1.Complete tables ↔ RestEmpty names := by
  obtain ⟨hstatus, hnames⟩ := @db_tableNames names
  rw [← h.first_iff, DbResponse.Complete, hnames]
  exact and_iff_right hstatus

/-- **A listing is complete** if and only if every page after the first is empty, on each of the
    three routes. -/
theorem listing_iff {t' : Table "id" Json} (hposts : Splits (scan "Posts") (Stored t))
    (hsync : Splits sync (Stored t')) (htables : Splits names tables) :
    ((getPosts.run (scanned scan) ()).2.1.Complete t ↔ RestEmpty (scan "Posts")) ∧
    (FieldComplete (AppSync.listPosts.response (.ok (scanResult sync AppSync.listPosts.request)))
      t' ↔ RestEmpty sync) ∧
    ((db.run (listed names) ()).2.1.Complete tables ↔ RestEmpty names) :=
  ⟨getPosts_complete hposts, listPosts_complete hsync, db_complete htables⟩

end Complete

/-! ## 5. Two pages -/

/-- Two entries on two pages. -/
def twoPages {Key α : Type} (k : Key) (x y : α) : Service Key α
  | none => ⟨[x], some k⟩
  | some _ => ⟨[y], none⟩

/-- Two entries on one page. -/
def onePage {Key α : Type} (x y : α) : Service Key α := fun _ => ⟨[x, y], none⟩

section TwoEntries

variable {Key α : Type} {k : Key} {x y : α} {S : Set α}

theorem lists_pair (hne : x ≠ y) (hS : ∀ z, z ∈ S ↔ z = x ∨ z = y) : Lists [x, y] S where
  once := by simp [hne]
  all z := by simp [hS]

theorem twoPages_splits (hne : x ≠ y) (hS : ∀ z, z ∈ S ↔ z = x ∨ z = y) :
    Splits (twoPages k x y) S := by
  have hlast : Pages (twoPages k x y) (some k) [y] := .last rfl
  exact ⟨[x] ++ [y], .more rfl hlast, lists_pair hne hS⟩

theorem twoPages_rest : ¬ RestEmpty (twoPages k x y) := by
  intro h
  cases h k [y] rfl (.last rfl)

theorem onePage_splits (hne : x ≠ y) (hS : ∀ z, z ∈ S ↔ z = x ∨ z = y) :
    Splits (onePage x y : Service Key α) S := ⟨[x, y], .last rfl, lists_pair hne hS⟩

end TwoEntries

/-- The post with the id `n`. -/
def post (n : Int) : Attrs Json := of [("id", .num (.int n)), ("title", .str "hi")]

/-- A table of two posts. -/
def twoPosts : Table "id" Json :=
  (Keyed.empty.put (.num (.int 1)) (post 1) rfl).put (.num (.int 2)) (post 2) rfl

theorem post_ne : post 1 ≠ post 2 := by
  intro h
  exact absurd (congrFun h "id") (by decide)

theorem mem_twoPosts (item : Attrs Json) :
    item ∈ Stored twoPosts ↔ item = post 1 ∨ item = post 2 := by
  constructor
  · intro h
    obtain ⟨k, hk⟩ := h
    rcases Keyed.of_put _ hk with ⟨_, rfl⟩ | ⟨_, hk⟩
    · exact Or.inr rfl
    · rcases Keyed.of_put _ hk with ⟨_, rfl⟩ | ⟨_, hk⟩
      · exact Or.inl rfl
      · cases hk
  · rintro (rfl | rfl)
    · exact ⟨.num (.int 1), rfl⟩
    · exact ⟨.num (.int 2), rfl⟩

theorem mem_names (z : String) : z ∈ ({"A", "B"} : Set String) ↔ z = "A" ∨ z = "B" := Iff.rfl

/-- Two entries on one page are all answered, two on two pages are not. -/
theorem listing_iff_pages :
    ((getPosts.run (scanned fun _ => onePage (post 1) (post 2)) ()).2.1.Complete twoPosts ↔
      RestEmpty (onePage (post 1) (post 2) : Service (Attrs Json) (Attrs Json))) ∧
    (FieldComplete (AppSync.listPosts.response (.ok (scanResult
      (twoPages "t" (post 1) (post 2)) AppSync.listPosts.request))) twoPosts ↔
      RestEmpty (twoPages "t" (post 1) (post 2))) ∧
    ((db.run (listed (twoPages "A" "A" "B")) ()).2.1.Complete {"A", "B"} ↔
      RestEmpty (twoPages "A" "A" "B")) :=
  listing_iff (onePage_splits post_ne mem_twoPosts) (twoPages_splits post_ne mem_twoPosts)
    (twoPages_splits (by decide) mem_names)

/-- Two posts on two pages: GET /posts, and listPosts, show one of them; and so does GET /db of two
    table names. -/
theorem twoPages_incomplete :
    Splits (twoPages (post 1) (post 1) (post 2)) (Stored twoPosts) ∧
    ¬ (getPosts.run (scanned fun _ => twoPages (post 1) (post 1) (post 2)) ()).2.1.Complete twoPosts ∧
    Splits (twoPages "t" (post 1) (post 2)) (Stored twoPosts) ∧
    ¬ FieldComplete (AppSync.listPosts.response (.ok (scanResult
      (twoPages "t" (post 1) (post 2)) AppSync.listPosts.request))) twoPosts ∧
    Splits (twoPages "A" "A" "B") {"A", "B"} ∧
    ¬ (db.run (listed (twoPages "A" "A" "B")) ()).2.1.Complete {"A", "B"} := by
  have hposts : Splits (twoPages (post 1) (post 1) (post 2)) (Stored twoPosts) :=
    twoPages_splits post_ne mem_twoPosts
  have hsync : Splits (twoPages "t" (post 1) (post 2)) (Stored twoPosts) :=
    twoPages_splits post_ne mem_twoPosts
  have hnames : Splits (twoPages "A" "A" "B") {"A", "B"} := twoPages_splits (by decide) mem_names
  refine ⟨hposts, fun h => ?_, hsync, fun h => ?_, hnames, fun h => ?_⟩
  · exact twoPages_rest ((getPosts_complete hposts).mp h)
  · exact twoPages_rest ((listPosts_complete hsync).mp h)
  · exact twoPages_rest ((db_complete hnames).mp h)

end Listing
