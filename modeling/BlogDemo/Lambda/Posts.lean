/-
  File:      BlogDemo/Lambda/Posts.lean
  Subject:   THE TWO TABLES UNDER THE POST HANDLERS: what each command of a handler does to Counter
             and Posts, and the handlers as programs of these commands, each by the calls it makes.

  * `Db.exec` -- a command on the tables; `exec_counter`, `exec_put`, `exec_get`, `exec_update`,
    `exec_delete` -- what the commands of the four handlers do;
  * `posts_frame` -- the only commands that change the item under a key of Posts;
  * `createPost_calls`, `updatePost_calls`, `deletePost_calls`, `getPost_calls` -- the calls of
    each handler, in order, with what it has checked before each.
-/
import BlogDemo.Lambda.Handlers

namespace Lambda

open Js Atomic Dynamo Attrs
open Prog (Final final_ret)

/-! ## 1. The tables -/

/-- The tables of serverless.yaml: Counter by `name`, Posts by `id`. -/
@[ext] structure Db where
  counter : Table "name" Json
  posts : Table "id" Json

def Db.empty : Db := ⟨Keyed.empty, Keyed.empty⟩

/-- Posts with `item` under its key `k`. -/
def Db.putPost (db : Db) (k : Json) (item : Attrs Json) (h : item "id" = some k) : Db :=
  { db with posts := db.posts.put k item h }

/-- Posts without the item under `k`. -/
def Db.erasePost (db : Db) (k : Json) : Db := { db with posts := db.posts.erase k }

/-- What UpdateItem returns, by its ReturnValues. -/
def UpdateCommand.output {pk : String} (c : UpdateCommand) (u : Updated pk Json) : Output :=
  if c.returnValues = "ALL_NEW" then { attributes := some u.item }
  else if c.returnValues = "UPDATED_NEW" then { attributes := some u.changed }
  else {}

/-- A command on one table. -/
def Command.onTable {pk : String} (c : Command) (t : Table pk Json) :
    Except Error Output × Table pk Json :=
  match c with
  | .update c =>
    match t.updateItem plus c.key c.updateExpression none
        ⟨c.expressionAttributeNames, c.expressionAttributeValues⟩ with
    | .ok u => (.ok (c.output u), u.table)
    | .error e => (.error e, t)
  | .put c =>
    match t.putItem (Attrs.of c.item) none {} with
    | .ok t' => (.ok {}, t')
    | .error e => (.error e, t)
  | .get c =>
    match t.getItem c.key with
    | .ok item => (.ok { item := item }, t)
    | .error e => (.error e, t)
  | .delete c =>
    match t.deleteItem c.key none {} with
    | .ok t' => (.ok {}, t')
    | .error e => (.error e, t)

def Command.tableName : Command → String
  | .update c => c.tableName
  | .put c => c.tableName
  | .get c => c.tableName
  | .delete c => c.tableName

/-- **A command on the database.** -/
def Db.exec : Apply Command Answer Db := fun c db =>
  if c.tableName = "Counter" then
    ((c.onTable db.counter).1, { db with counter := (c.onTable db.counter).2 })
  else if c.tableName = "Posts" then
    ((c.onTable db.posts).1, { db with posts := (c.onTable db.posts).2 })
  else (.error ⟨"ResourceNotFoundException", "Requested resource not found"⟩, db)

theorem exec_posts {c : Command} (db : Db) (hc : c.tableName = "Posts") :
    (Db.exec c db).2.posts = (c.onTable db.posts).2 := by
  have hne : ("Posts" : String) ≠ "Counter" := by decide
  rw [Db.exec, hc, if_neg hne, if_pos rfl]

/-! ## 2. What the commands of the handlers do -/

/-- The number of the last id given out. -/
def CounterAt (db : Db) (n : Nat) : Prop :=
  db.counter.item (.str "post") "value" = some (.num (.int n)) ∨
    n = 0 ∧ db.counter.item (.str "post") "value" = none

/-- The value of the counter; an absent one counts as zero. -/
def Db.counterValue (db : Db) : Nat :=
  match db.counter.item (.str "post") "value" with
  | some (.num (.int z)) => z.toNat
  | _ => 0

theorem counterAt_value {db : Db} {n : Nat} (h : CounterAt db n) : db.counterValue = n := by
  unfold Db.counterValue
  rcases h with h | ⟨rfl, h⟩
  · rw [h]
    exact Int.toNat_natCast n
  · rw [h]

theorem counterAt_empty : CounterAt Db.empty 0 := Or.inr ⟨rfl, rfl⟩

/-- The placeholders of an UpdateCommand. -/
def UpdateCommand.env (c : UpdateCommand) : Env Json :=
  ⟨c.expressionAttributeNames, c.expressionAttributeValues⟩

/-- Adding one to a counter that stands at `n` makes it `n + 1`, whether or not it was there. -/
theorem eval_counterUpdate {item : Attrs Json} {n : Nat}
    (h : item "value" = some (.num (.int n)) ∨ n = 0 ∧ item "value" = none) :
    evalUpdate plus counterUpdate.env item counterUpdate.updateExpression =
      some [("value", .num (.int (n + 1 : Nat)))] := by
  have hp : parseUpdate counterUpdate.updateExpression =
      some [⟨"#v", .plus (.ifNotExists "#v" ":init") (.word ":inc")⟩] := by decide
  have hname : counterUpdate.env.path "#v" = some "value" := rfl
  have hinc : counterUpdate.env.value item ":inc" = some (some (.num (.int 1))) := rfl
  have hinit : counterUpdate.env.value item ":init" = some (some (.num (.int 0))) := rfl
  simp only [evalUpdate, hp, Option.bind_some, List.mapM_cons, List.mapM_nil, SetAction.eval,
    Sum.eval, Operand.eval, hname, hinc, hinit, Option.map_some, Option.join_some]
  rcases h with h | ⟨rfl, h⟩
  · rw [h]
    rfl
  · rw [h]
    rfl

/-- What the counter's update sets. -/
def nextValue (n : Nat) : List (String × Json) := [("value", .num (.int (n + 1 : Nat)))]

theorem nextValue_key (n : Nat) : "name" ∉ (nextValue n).map Prod.fst := by simp [nextValue]

/-- Counter with its item standing at `n + 1`. -/
def Db.counted (db : Db) (n : Nat) : Db where
  counter := db.counter.put (.str "post") (applySets (db.counter.base (.str "post")) (nextValue n))
    (db.counter.base_sets _ (nextValue_key n))
  posts := db.posts

theorem counterAt_counted (db : Db) (n : Nat) : CounterAt (db.counted n) (n + 1) := by
  refine Or.inl ?_
  simp [Db.counted, Table.item, nextValue]

/-- **The counter's update** answers the number after the last and leaves it in the table. -/
theorem exec_counter {db : Db} {n : Nat} (h : CounterAt db n) :
    Db.exec (.update counterUpdate) db =
      (.ok { attributes := some (Attrs.of (nextValue n)) }, db.counted n) := by
  have hbase : db.counter.base (.str "post") "value" = db.counter.item (.str "post") "value" :=
    db.counter.base_apply _ (by decide)
  have hu : counterUpdate.env.unused [counterUpdate.updateExpression] = false := by decide
  unfold CounterAt at h
  rw [← hbase] at h
  have hok := db.counter.updateItem_ok (.str "post") hu (holds_none _ _) (eval_counterUpdate h)
    (nextValue_key n)
  simp only [UpdateCommand.env, counterUpdate] at hok
  simp [Db.exec, Command.tableName, Command.onTable, counterUpdate, hok, UpdateCommand.output,
    Db.counted, nextValue]

/-- PutCommand of an item with the id `k`. -/
theorem exec_put (db : Db) {item : List (String × Json)} {k : Json}
    (h : Attrs.of item "id" = some k) :
    Db.exec (.put ⟨"Posts", item⟩) db =
      (.ok {}, db.putPost k (Attrs.of item) h) := by
  have hok := db.posts.putItem_ok h
  simp [Db.exec, Command.tableName, Command.onTable, hok, Db.putPost]

/-- GetCommand on Posts. -/
theorem exec_get (db : Db) (k : Json) :
    Db.exec (.get ⟨"Posts", ("id", k)⟩) db = (.ok { item := db.posts.get k }, db) := by
  simp [Db.exec, Command.tableName, Command.onTable, Table.getItem]

/-- DeleteCommand on Posts. -/
theorem exec_delete (db : Db) (k : Json) :
    Db.exec (.delete ⟨"Posts", ("id", k)⟩) db = (.ok {}, db.erasePost k) := by
  have hok := db.posts.deleteItem_ok k
  simp [Db.exec, Command.tableName, Command.onTable, hok, Db.erasePost]

/-- What updatePost sets. -/
def newText (title content : Json) : List (String × Json) := [("title", title), ("content", content)]

theorem newText_key (title content : Json) : "id" ∉ (newText title content).map Prod.fst := by
  simp [newText]

/-- The item an update leaves under `k`: the item there, or the key alone, with the new text. -/
def Db.updated (db : Db) (k title content : Json) : Attrs Json :=
  applySets (db.posts.base k) (newText title content)

theorem Db.updated_key (db : Db) (k title content : Json) :
    db.updated k title content "id" = some k :=
  db.posts.base_sets k (newText_key title content)

/-- **UpdateCommand of updatePost**: it creates the item when there is none. -/
theorem exec_update (db : Db) (id : String) (title content : Json) :
    Db.exec (.update (updateCommand id [(":t", title), (":c", content)])) db =
      (.ok { attributes := some (db.updated (.str id) title content) },
        db.putPost (.str id) (db.updated (.str id) title content) (db.updated_key ..)) := by
  have hev : evalUpdate plus (updateCommand id [(":t", title), (":c", content)]).env
      (db.posts.base (.str id)) "SET #t = :t, #c = :c" = some (newText title content) := rfl
  have hu : (updateCommand id [(":t", title), (":c", content)]).env.unused
      ["SET #t = :t, #c = :c"] = false := rfl
  have hok := db.posts.updateItem_ok (.str id) hu (holds_none _ _) hev (newText_key title content)
  simp only [UpdateCommand.env, updateCommand] at hok
  simp [Db.exec, Command.tableName, Command.onTable, updateCommand, hok, UpdateCommand.output,
    Db.updated, Db.putPost]

/-! ## 3. What a command leaves alone -/

/-- The key of the item of Posts a command writes. -/
def Command.writes : Command → Option Json
  | .update c => if c.tableName = "Posts" then some c.key.2 else none
  | .put c => if c.tableName = "Posts" then Attrs.of c.item "id" else none
  | .get _ => none
  | .delete c => if c.tableName = "Posts" then some c.key.2 else none

/-- A command on Posts leaves every item it does not write as it was. -/
theorem onTable_frame (c : Command) (t : Table "id" Json) {k : Json} (hc : c.tableName = "Posts")
    (h : c.writes ≠ some k) : (c.onTable t).2.get k = t.get k := by
  cases c with
  | update c =>
      have hc : c.tableName = "Posts" := hc
      simp only [Command.writes, if_pos hc, ne_eq, Option.some.injEq] at h
      simp only [Command.onTable]
      split
      · rename_i u hu
        exact (updateItem_spec hu).2.2.2.2 k (Ne.symm h)
      · rfl
  | put c =>
      have hc : c.tableName = "Posts" := hc
      simp only [Command.writes, if_pos hc] at h
      simp only [Command.onTable]
      split
      · rename_i t' ht
        obtain ⟨k', hk', _, _, hframe⟩ := putItem_spec ht
        exact hframe k fun e => h (e ▸ hk')
      · rfl
  | get c =>
      simp only [Command.onTable]
      split <;> rfl
  | delete c =>
      have hc : c.tableName = "Posts" := hc
      simp only [Command.writes, if_pos hc, ne_eq, Option.some.injEq] at h
      simp only [Command.onTable]
      split
      · rename_i t' ht
        exact (deleteItem_spec ht).2.2.2 k (Ne.symm h)
      · rfl

/-- **An item of Posts changes only under a command that writes it.** -/
theorem posts_frame (c : Command) (db : Db) {k : Json} (h : c.writes ≠ some k) :
    (Db.exec c db).2.posts.get k = db.posts.get k := by
  by_cases hc : c.tableName = "Posts"
  · rw [exec_posts db hc, onTable_frame c db.posts hc h]
  · unfold Db.exec
    rw [if_neg hc]
    split <;> rfl

/-! ## 4. The calls of the handlers -/

/-- `event.requestContext.authorizer?.jwt?.claims?.sub` -/
def subOf (ev : Event) : Option Json := ev.claims.bind (·.get? "sub")

/-- The item createPost writes for a request: the six attributes, in the order of the source. -/
def IsPost (ev : Event) (id : String) (item : List (String × Json)) : Prop :=
  ∃ title content sub userName now, subOf ev = some sub ∧
    item = [("id", .str id), ("title", title), ("content", content), ("userId", sub),
      ("userName", userName), ("createdAt", .str now)]

/-- **createPost** counts, then puts one item with the number it was answered. -/
theorem createPost_calls (now : String) (ev : Event) :
    Final (createPost now ev) ∨
    ∃ next, createPost now ev = .call (.update counterUpdate) next ∧
      (∀ e, Final (next (.error e))) ∧
      ∀ out, ∃ item next', next (.ok out) = .call (.put ⟨"Posts", item⟩) next' ∧
        IsPost ev (string (out.attributes.bind (· "value"))) item ∧ ∀ r, Final (next' r) := by
  simp only [createPost, getNextId, send, Prog.catching_lift, Prog.catching_ite,
    Prog.catching_pure, Prog.catching_send, bind_assoc, pure_bind]
  cases parseBody ev with
  | error e => exact Or.inl (final_ret _)
  | ok data =>
      by_cases htext : (!truthy (data.get? "title") || !truthy (data.get? "content")) = true
      · exact Or.inl ⟨_, if_pos htext⟩
      · by_cases huser : (!truthy ev.claims || !truthy (ev.claims.bind (·.get? "sub")) ||
            !truthy (ev.claims.bind (·.get? "username"))) = true
        · simp only [if_neg htext, if_pos huser]
          exact Or.inl (final_ret _)
        · simp only [if_neg htext, if_neg huser]
          simp only [Bool.or_eq_true, Bool.not_eq_true', not_or, Bool.not_eq_false] at htext huser
          obtain ⟨title, htitle⟩ := truthy_isSome htext.1
          obtain ⟨content, hcontent⟩ := truthy_isSome htext.2
          obtain ⟨sub, hsub⟩ := truthy_isSome huser.1.2
          obtain ⟨userName, huserName⟩ := truthy_isSome huser.2
          -- nothing is undefined, so the item is marshalled as it stands
          simp only [htitle, hcontent, hsub, huserName]
          refine Or.inr ⟨_, rfl, fun e => final_ret _, fun out => ⟨_, _, rfl, ?_, fun r => ?_⟩⟩
          · exact ⟨title, content, sub, userName, now, hsub, rfl⟩
          · cases r <;> exact final_ret _

/-- **updatePost** reads the item, compares its owner with the claims, and writes the new text. -/
theorem updatePost_calls (ev : Event) :
    Final (updatePost ev) ∨
    ∃ id title content next, updatePost ev = .call (.get ⟨"Posts", ("id", .str id)⟩) next ∧
      (∀ e, Final (next (.error e))) ∧
      ∀ out, Final (next (.ok out)) ∨ ∃ item next', out.item = some item ∧
        item "userId" = subOf ev ∧
        next (.ok out) =
          .call (.update (updateCommand id [(":t", title), (":c", content)])) next' ∧
        ∀ r, Final (next' r) := by
  simp only [updatePost, send, Prog.catching_lift, Prog.catching_ite, Prog.catching_pure,
    Prog.catching_send]
  by_cases hid : missing ev.id = true
  · exact Or.inl ⟨_, if_pos hid⟩
  · simp only [if_neg hid]
    cases parseBody ev with
    | error e => exact Or.inl (final_ret _)
    | ok data =>
        by_cases htext : (!truthy (data.get? "title") || !truthy (data.get? "content")) = true
        · exact Or.inl ⟨_, if_pos htext⟩
        · by_cases huser : (!truthy ev.claims) = true
          · simp only [if_neg htext, if_pos huser]
            exact Or.inl (final_ret _)
          · simp only [if_neg htext, if_neg huser]
            simp only [Bool.or_eq_true, Bool.not_eq_true', not_or, Bool.not_eq_false] at htext
            obtain ⟨title, htitle⟩ := truthy_isSome htext.1
            obtain ⟨content, hcontent⟩ := truthy_isSome htext.2
            simp only [htitle, hcontent]
            refine Or.inr ⟨_, title, content, _, rfl, fun e => final_ret _, fun out => ?_⟩
            obtain ⟨item | item, attributes⟩ := out
            · exact Or.inl (final_ret _)
            · by_cases hown : strictEq (item "userId") (ev.claims.bind (·.get? "sub")) = true
              · simp only [hown, Prog.catching_ite, Prog.catching_pure]
                refine Or.inr ⟨item, _, rfl, eq_of_strictEq hown, rfl, fun r => ?_⟩
                cases r <;> exact final_ret _
              · rw [Bool.not_eq_true] at hown
                simp only [hown, Prog.catching_ite, Prog.catching_pure]
                exact Or.inl (final_ret _)

/-- **deletePost** reads the item, compares its owner with the claims, which have a `sub`, and
    deletes it. -/
theorem deletePost_calls (ev : Event) :
    Final (deletePost ev) ∨
    ∃ id sub next, deletePost ev = .call (.get ⟨"Posts", ("id", .str id)⟩) next ∧
      subOf ev = some sub ∧
      (∀ e, Final (next (.error e))) ∧
      ∀ out, Final (next (.ok out)) ∨ ∃ item next', out.item = some item ∧
        item "userId" = subOf ev ∧
        next (.ok out) = .call (.delete ⟨"Posts", ("id", .str id)⟩) next' ∧
        ∀ r, Final (next' r) := by
  simp only [deletePost, send, Prog.catching_ite, Prog.catching_pure, Prog.catching_send]
  by_cases hid : missing ev.id = true
  · exact Or.inl ⟨_, if_pos hid⟩
  · simp only [if_neg hid]
    by_cases huser : (!truthy ev.claims || !truthy (ev.claims.bind (·.get? "sub")) ||
        !truthy (ev.claims.bind (·.get? "username"))) = true
    · exact Or.inl ⟨_, if_pos huser⟩
    · simp only [if_neg huser]
      simp only [Bool.or_eq_true, Bool.not_eq_true', not_or, Bool.not_eq_false] at huser
      obtain ⟨sub, hsub⟩ := truthy_isSome huser.1.2
      refine Or.inr ⟨_, sub, _, rfl, hsub, fun e => final_ret _, fun out => ?_⟩
      obtain ⟨item | item, attributes⟩ := out
      · exact Or.inl (final_ret _)
      · by_cases hown : strictEq (item "userId") (ev.claims.bind (·.get? "sub")) = true
        · simp only [hown, Prog.catching_ite, Prog.catching_pure]
          refine Or.inr ⟨item, _, rfl, eq_of_strictEq hown, rfl, fun r => ?_⟩
          cases r <;> exact final_ret _
        · rw [Bool.not_eq_true] at hown
          simp only [hown, Prog.catching_ite, Prog.catching_pure]
          exact Or.inl (final_ret _)

/-- **getPost** only reads. -/
theorem getPost_calls (ev : Event) :
    Final (getPost ev) ∨
    ∃ id next, getPost ev = .call (.get ⟨"Posts", ("id", .str id)⟩) next ∧
      ∀ r, Final (next r) := by
  simp only [getPost, send, Prog.catching_ite, Prog.catching_pure, Prog.catching_send]
  by_cases hid : missing ev.id = true
  · exact Or.inl ⟨_, if_pos hid⟩
  · simp only [if_neg hid]
    refine Or.inr ⟨_, _, rfl, fun r => ?_⟩
    cases r with
    | error e => exact final_ret _
    | ok out =>
        obtain ⟨item | item, attributes⟩ := out <;> exact final_ret _

end Lambda
