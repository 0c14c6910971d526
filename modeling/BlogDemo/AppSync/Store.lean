/-
  File:      BlogDemo/AppSync/Store.lean
  Subject:   THE POSTS TABLE UNDER THE RESOLVERS: any family of GraphQL requests, their operations
             in any order, each checking its condition and taking effect on one item at once.

  * `execute` -- an operation on the table;
  * `createPost_execute`, `updatePost_execute`, `deletePost_execute` -- what the operation of each
    resolver can do to the table; `updatePost_applied` -- an update by the author is applied;
  * `StoreSafe`, **`storeSafe`** -- what no run of the resolvers ever does.
-/
import BlogDemo.AppSync.Resolvers
import BlogDemo.Lib.Interleave

namespace AppSync

open Js Atomic Dynamo Attrs
open Prog (Final final_ret)

/-! ## 1. Operations on the table -/

abbrev Posts := Table "id" Json

def keyMissing : Error := validation "The provided key element does not match the schema"

/-- **An operation on the table.** -/
def execute : Apply Operation Answer Posts
  | .getItem [key], t =>
    match t.getItem key with
    | .ok item => (.ok item, t)
    | .error e => (.error e, t)
  | .putItem key attributeValues condition, t =>
    match t.putItem (Attrs.of (key ++ attributeValues)) (some condition.expression) condition.env with
    | .ok t' => (.ok (some (Attrs.of (key ++ attributeValues))), t')
    | .error e => (.error e, t)
  | .updateItem [key] update condition, t =>
    match t.updateItem plus key update.expression (some condition.expression)
        ⟨update.expressionNames ++ condition.expressionNames,
          update.expressionValues ++ condition.expressionValues⟩ with
    | .ok u => (.ok (some u.item), u.table)
    | .error e => (.error e, t)
  | .deleteItem [key] condition, t =>
    match t.deleteItem key (some condition.expression) condition.env with
    | .ok t' => (.ok (t.get key.2), t')
    | .error e => (.error e, t)
  | _, t => (.error keyMissing, t)

/-! ## 2. The operations of the resolvers -/

variable {util : Util} {ctx : Context} {op : Operation} {t : Posts}

theorem user_ok {u : String} (h : ctx.user = .ok u) : ctx.username = some u := by
  unfold Context.user at h
  split at h
  · split at h
    · cases h
    · rename_i hu _
      cases h
      exact hu
  · cases h

/-- A key from the argument `id`: it, or what the utilities make of its absence. -/
theorem mapValues_one {v : Option Json} {k : String × Json} {a : String}
    (h : util.toMapValues [(a, v)] = [k]) :
    k.1 = a ∧ (v = some k.2 ∨ v = none ∧ util.undefined = some k.2) := by
  cases v with
  | some x => cases h; exact ⟨rfl, Or.inl rfl⟩
  | none =>
      cases hu : util.undefined with
      | none => simp [Util.toMapValues, hu] at h
      | some x =>
          simp [Util.toMapValues, hu] at h
          cases h
          exact ⟨rfl, Or.inr ⟨rfl, rfl⟩⟩

/-- The condition of a put holds only where there is no item. -/
theorem holds_notExists {k : Json}
    (h : Holds (Expression.env ⟨"attribute_not_exists(id)", [], []⟩) (t.item k)
      (some "attribute_not_exists(id)")) : t.get k = none := by
  have hc : parseCondition "attribute_not_exists(id)" = some (.notExists "id") := by decide
  rw [holds_some hc] at h
  cases hk : t.get k with
  | none => rfl
  | some item =>
      have hid : t.item k "id" = some k := by
        rw [Table.item, hk]
        exact t.keyed k item hk
      have hpath : Env.path (Expression.env ⟨"attribute_not_exists(id)", [], []⟩) "id" =
          some "id" := rfl
      simp [Condition.eval, hpath, hid] at h

/-- The condition of updates and deletions holds only of an item of that author. -/
theorem holds_isAuthor {env : Env Json} {u : String} {k : Json}
    (hname : env.names.lookup "#author" = some "author")
    (hvalue : env.values.lookup ":u" = some (.str u))
    (h : Holds env (t.item k) (some "#author = :u")) :
    ∃ item, t.get k = some item ∧ item "author" = some (.str u) := by
  have hc : parseCondition "#author = :u" = some (.eq "#author" ":u") := by decide
  rw [holds_some hc] at h
  have hpath : env.value (t.item k) "#author" = some (t.item k "author") := by
    have hb : begins ':' "#author" = false := by decide
    have hb' : begins '#' "#author" = true := by decide
    simp [Env.value, Env.path, hb, hb', hname]
  have hu : env.value (t.item k) ":u" = some (some (.str u)) := by
    have hb : begins ':' ":u" = true := by decide
    simp [Env.value, hb, hvalue]
  simp only [Condition.eval, hpath, hu] at h
  cases hk : t.get k with
  | none => simp [Table.item, hk] at h
  | some item =>
      refine ⟨item, rfl, ?_⟩
      cases ha : item "author" with
      | none => simp [Table.item, hk, ha] at h
      | some v =>
          simp [Table.item, hk, ha] at h
          rw [h]

/-- It does hold of an item of that author. -/
theorem holds_author {env : Env Json} {u : String} {item : Attrs Json}
    (hname : env.names.lookup "#author" = some "author")
    (hvalue : env.values.lookup ":u" = some (.str u)) (h : item "author" = some (.str u)) :
    Holds env item (some "#author = :u") := by
  have hc : parseCondition "#author = :u" = some (.eq "#author" ":u") := by decide
  have hb : begins ':' "#author" = false := by decide
  have hb' : begins '#' "#author" = true := by decide
  have hb'' : begins ':' ":u" = true := by decide
  rw [holds_some hc]
  simp [Condition.eval, Env.value, Env.path, hb, hb', hb'', hname, hvalue, h]

/-- **createPost** puts its item where there is none, or is refused. -/
theorem createPost_execute {id now : String} (h : createPost.request util id now ctx = .ok op)
    (t : Posts) : (∃ e, execute op t = (.error e, t)) ∨ t.get (.str id) = none ∧
      ∀ k, k ≠ .str id → (execute op t).2.get k = t.get k := by
  unfold createPost.request at h
  cases hu : ctx.user with
  | error e => rw [hu] at h; cases h
  | ok u =>
      rw [hu] at h
      cases h
      simp only [execute]
      split
      · rename_i t' ht
        obtain ⟨k, hk, hc, _, hframe⟩ := putItem_spec ht
        have hid : Json.str id = k := Option.some.inj hk
        subst hid
        exact Or.inr ⟨holds_notExists hc, hframe⟩
      · exact Or.inl ⟨_, rfl⟩

/-- What an update sets: the arguments that are not undefined. -/
def newText (args : Args) : List (String × Json) :=
  args.title.toList.map ("title", ·) ++ args.content.toList.map ("content", ·)

theorem newText_keeps (args : Args) : "id" ∉ (newText args).map Prod.fst := by
  obtain ⟨id, _ | title, _ | content⟩ := args <;> simp [newText]

/-- The update expression of updatePost.js. -/
def textUpdate (util : Util) (args : Args) : Expression where
  expression := "SET " ++ ", ".intercalate
    ((args.title.toList.map fun _ => "#title = :title") ++
      args.content.toList.map fun _ => "#content = :content")
  expressionNames := (args.title.toList.map fun _ => ("#title", "title")) ++
    args.content.toList.map fun _ => ("#content", "content")
  expressionValues := util.toMapValues ((args.title.toList.map fun v => (":title", some v)) ++
    args.content.toList.map fun v => (":content", some v))

theorem updatePost_ok (h : updatePost.request util ctx = .ok op) :
    ∃ u, ctx.username = some u ∧ ¬ (ctx.args.title = none ∧ ctx.args.content = none) ∧
      op = .updateItem (util.toMapValues [("id", ctx.args.id)]) (textUpdate util ctx.args)
        (isAuthor util u) := by
  unfold updatePost.request at h
  cases hu : ctx.user with
  | error e => rw [hu] at h; cases h
  | ok u =>
      rw [hu] at h
      refine ⟨u, user_ok hu, ?_⟩
      cases ht : ctx.args.title <;> cases hc : ctx.args.content <;> rw [ht, hc] at h <;> cases h
      · exact ⟨by simp, by rw [textUpdate, ht, hc]; rfl⟩
      · exact ⟨by simp, by rw [textUpdate, ht, hc]; rfl⟩
      · exact ⟨by simp, by rw [textUpdate, ht, hc]; rfl⟩

/-- The placeholders of an update and its condition, sent together. -/
def updateEnv (util : Util) (args : Args) (u : String) : Env Json :=
  ⟨(textUpdate util args).expressionNames ++ (isAuthor util u).expressionNames,
    (textUpdate util args).expressionValues ++ (isAuthor util u).expressionValues⟩

/-- The actions of an update of some of the two texts. -/
def textActions (args : Args) : List SetAction :=
  (args.title.toList.map fun _ => ⟨"#title", .one (.word ":title")⟩) ++
    args.content.toList.map fun _ => ⟨"#content", .one (.word ":content")⟩

theorem parse_textUpdate {args : Args} (h : ¬ (args.title = none ∧ args.content = none)) :
    parseUpdate (textUpdate util args).expression = some (textActions args) := by
  obtain ⟨id, _ | title, _ | content⟩ := args
  · exact absurd ⟨rfl, rfl⟩ h
  · show parseUpdate ("SET " ++ ", ".intercalate ["#content = :content"]) =
      some [⟨"#content", .one (.word ":content")⟩]
    decide
  · show parseUpdate ("SET " ++ ", ".intercalate ["#title = :title"]) =
      some [⟨"#title", .one (.word ":title")⟩]
    decide
  · show parseUpdate ("SET " ++ ", ".intercalate ["#title = :title", "#content = :content"]) =
      some [⟨"#title", .one (.word ":title")⟩, ⟨"#content", .one (.word ":content")⟩]
    decide

theorem eval_title {args : Args} {title : Json} (h : args.title = some title) (u : String)
    (item : Attrs Json) :
    SetAction.eval plus (updateEnv util args u) item ⟨"#title", .one (.word ":title")⟩ =
      some ("title", title) := by
  obtain ⟨id, _, content⟩ := args
  subst h
  have hpath : (updateEnv util ⟨id, some title, content⟩ u).path "#title" = some "title" := rfl
  have hvalue : (updateEnv util ⟨id, some title, content⟩ u).value item ":title" =
      some (some title) := rfl
  simp only [SetAction.eval, Sum.eval, Operand.eval, hpath, hvalue, Option.join_some]

theorem eval_content {args : Args} {content : Json} (h : args.content = some content) (u : String)
    (item : Attrs Json) :
    SetAction.eval plus (updateEnv util args u) item ⟨"#content", .one (.word ":content")⟩ =
      some ("content", content) := by
  obtain ⟨id, title, _⟩ := args
  subst h
  have hpath : (updateEnv util ⟨id, title, some content⟩ u).path "#content" = some "content" := by
    cases title <;> rfl
  have hvalue : (updateEnv util ⟨id, title, some content⟩ u).value item ":content" =
      some (some content) := by
    cases title <;> rfl
  simp only [SetAction.eval, Sum.eval, Operand.eval, hpath, hvalue, Option.join_some]

/-- Whatever the arguments, the placeholders of the update match up: it sets what was given. -/
theorem eval_textUpdate {args : Args} (h : ¬ (args.title = none ∧ args.content = none)) (u : String)
    (item : Attrs Json) :
    evalUpdate plus (updateEnv util args u) item (textUpdate util args).expression =
      some (newText args) := by
  rw [evalUpdate, parse_textUpdate h, Option.bind_some]
  cases ht : args.title <;> cases hc : args.content <;>
    simp [textActions, newText, ht, hc, List.mapM_cons, eval_title, eval_content]

theorem updateEnv_author (util : Util) (args : Args) (u : String) :
    (updateEnv util args u).names.lookup "#author" = some "author" ∧
      (updateEnv util args u).values.lookup ":u" = some (.str u) := by
  obtain ⟨id, _ | title, _ | content⟩ := args <;> exact ⟨rfl, rfl⟩

/-- **updatePost** sets the given text on an item of its user, or is refused. -/
theorem updatePost_execute (h : updatePost.request util ctx = .ok op) (t : Posts) :
    (∃ e, execute op t = (.error e, t)) ∨ ∃ u k item, ctx.username = some u ∧
      (ctx.args.id = some k ∨ ctx.args.id = none ∧ util.undefined = some k) ∧
      t.get k = some item ∧ item "author" = some (.str u) ∧
      (execute op t).2.get k = some (applySets item (newText ctx.args)) ∧
      ∀ k', k' ≠ k → (execute op t).2.get k' = t.get k' := by
  obtain ⟨u, hu, hargs, rfl⟩ := updatePost_ok h
  cases hkey : util.toMapValues [("id", ctx.args.id)] with
  | nil => exact Or.inl ⟨_, rfl⟩
  | cons key rest =>
      cases rest with
      | cons _ _ => exact Or.inl ⟨_, rfl⟩
      | nil =>
          obtain ⟨_, hid⟩ := mapValues_one hkey
          simp only [execute]
          split
          · rename_i u' hu'
            obtain ⟨_, hc, ⟨sets, hsets, _, _, hitem⟩, hget, hframe⟩ := updateItem_spec hu'
            have henv := updateEnv_author util ctx.args u
            obtain ⟨item, hk, hauthor⟩ := holds_isAuthor henv.1 henv.2 hc
            have hsets' : some sets = some (newText ctx.args) :=
              hsets.symm.trans (eval_textUpdate hargs u _)
            have hbase : t.base key.2 = item := by rw [Table.base, hk, Option.getD_some]
            refine Or.inr ⟨u, key.2, item, hu, hid, hk, hauthor, ?_, hframe⟩
            rw [hget, hitem, hbase, Option.some.inj hsets']
          · exact Or.inl ⟨_, rfl⟩

theorem updateEnv_unused {args : Args} (h : ¬ (args.title = none ∧ args.content = none)) (u : String) :
    (updateEnv util args u).unused [(textUpdate util args).expression, "#author = :u"] = false := by
  -- with any values for the placeholders
  rw [Env.unused_keys _ (updateEnv ⟨none⟩ ⟨none, args.title.map fun _ => .null,
    args.content.map fun _ => .null⟩ "") _ (by obtain ⟨id, _ | title, _ | content⟩ := args <;> rfl)
    (by obtain ⟨id, _ | title, _ | content⟩ := args <;> rfl)]
  obtain ⟨id, _ | title, _ | content⟩ := args
  · exact absurd ⟨rfl, rfl⟩ h
  · show Env.unused (updateEnv ⟨none⟩ ⟨none, none, some .null⟩ "")
      ["SET " ++ ", ".intercalate ["#content = :content"], "#author = :u"] = false
    decide
  · show Env.unused (updateEnv ⟨none⟩ ⟨none, some .null, none⟩ "")
      ["SET " ++ ", ".intercalate ["#title = :title"], "#author = :u"] = false
    decide
  · show Env.unused (updateEnv ⟨none⟩ ⟨none, some .null, some .null⟩ "")
      ["SET " ++ ", ".intercalate ["#title = :title", "#content = :content"], "#author = :u"] = false
    decide

/-- **An update by the author is applied**, whichever of the two texts it gives. -/
theorem updatePost_applied {u : String} {k : Json} {item : Attrs Json} (hu : ctx.username = some u)
    (hne : u ≠ "") (hid : ctx.args.id = some k)
    (hargs : ¬ (ctx.args.title = none ∧ ctx.args.content = none)) (hk : t.get k = some item)
    (hauthor : item "author" = some (.str u)) :
    ∃ op, updatePost.request util ctx = .ok op ∧
      (execute op t).1 = .ok (some (applySets item (newText ctx.args))) ∧
      (execute op t).2.get k = some (applySets item (newText ctx.args)) := by
  obtain ⟨op, hop⟩ : ∃ op, updatePost.request util ctx = .ok op := by
    unfold updatePost.request
    rw [Context.user, hu]
    simp only [if_neg hne]
    cases ht : ctx.args.title <;> cases hc : ctx.args.content
    · exact absurd ⟨ht, hc⟩ hargs
    · exact ⟨_, rfl⟩
    · exact ⟨_, rfl⟩
    · exact ⟨_, rfl⟩
  obtain ⟨u', hu', -, rfl⟩ := updatePost_ok hop
  obtain rfl : u' = u := Option.some.inj (hu'.symm.trans hu)
  refine ⟨_, hop, ?_⟩
  have hkey : util.toMapValues [("id", ctx.args.id)] = [("id", k)] := by rw [hid]; rfl
  have hitem : t.item k = item := by rw [Table.item, hk, Option.getD_some]
  have hsets : applySets (t.base k) (newText ctx.args) = applySets item (newText ctx.args) := by
    rw [Table.base, hk, Option.getD_some]
  have henv := updateEnv_author util ctx.args u'
  have hholds : Holds (updateEnv util ctx.args u') (t.item k) (some "#author = :u") :=
    holds_author henv.1 henv.2 (hitem ▸ hauthor)
  have hok : t.updateItem plus ("id", k) (textUpdate util ctx.args).expression
      (some (isAuthor util u').expression) (updateEnv util ctx.args u') = _ :=
    Table.updateItem_ok t k (updateEnv_unused hargs u') hholds (eval_textUpdate hargs u' _)
      (newText_keeps ctx.args)
  rw [updateEnv] at hok
  rw [hkey, ← hsets]
  simp only [execute, hok]
  exact ⟨trivial, t.put_get_self⟩

/-- **deletePost** removes an item of its user, or is refused. -/
theorem deletePost_execute (h : deletePost.request util ctx = .ok op) (t : Posts) :
    (∃ e, execute op t = (.error e, t)) ∨ ∃ u k item, ctx.username = some u ∧ t.get k = some item ∧
      item "author" = some (.str u) ∧ (execute op t).2.get k = none ∧
      ∀ k', k' ≠ k → (execute op t).2.get k' = t.get k' := by
  unfold deletePost.request at h
  cases hu : ctx.user with
  | error e => rw [hu] at h; cases h
  | ok u =>
      rw [hu] at h
      cases h
      cases hkey : util.toMapValues [("id", ctx.args.id)] with
      | nil => exact Or.inl ⟨_, rfl⟩
      | cons key rest =>
          cases rest with
          | cons _ _ => exact Or.inl ⟨_, rfl⟩
          | nil =>
              simp only [execute]
              split
              · rename_i t' ht
                obtain ⟨_, hc, hnone, hframe⟩ := deleteItem_spec ht
                obtain ⟨item, hk, hauthor⟩ := holds_isAuthor (u := u) rfl rfl hc
                exact Or.inr ⟨u, key.2, item, user_ok hu, hk, hauthor, hnone, hframe⟩
              · exact Or.inl ⟨_, rfl⟩

/-- A read leaves the table as it is. -/
theorem getPost_execute (h : getPost.request util ctx = .ok op) (t : Posts) :
    (execute op t).2 = t := by
  cases h
  unfold execute
  split <;> (try split) <;> first | rfl | contradiction

/-! ## 3. Runs -/

/-- An operation has its effect and its answer, or fails before it or after it. -/
def effect : Effect Operation Answer Posts := Faulty execute fun _ r => ∃ e, r = .error e

variable {ι : Type}

abbrev State (ι : Type) := Config ι Operation Answer Reply Posts

abbrev Sent (ι : Type) := Call ι Operation Answer

def start (util : Util) (t₀ : Posts) (reqs : ι → Request) : State ι :=
  Config.init t₀ fun i => (reqs i).resolver util

section Runs

variable [DecidableEq ι] {util : Util} {t₀ : Posts} {reqs : ι → Request}
  {C : Guard ι Operation Answer Posts} {c c' c'' : State ι} {e : Sent ι} {k : Json}

/-- Every operation of a run is the one its request builds. -/
theorem step_operation (h : Run effect C (start util t₀ reqs) c) (hs : Step effect C c e c') :
    (reqs e.who).operation util = .ok e.op := by
  let S : Spec ι Operation Answer Posts :=
    ⟨fun _ _ => True, fun i _ _ op _ _ => (reqs i).operation util = .ok op⟩
  have h0 : Known effect C S (start util t₀ reqs) := by
    refine known_init trivial fun i => ?_
    unfold Request.resolver
    cases hop : (reqs i).operation util with
    | error e => exact keeps_final (final_ret _)
    | ok op => exact keeps_last (fun r => final_ret _) fun _ _ _ _ _ _ _ _ => ⟨hop, trivial⟩
  exact step_guar h0 h hs

/-- **What a step can do to the item under `k`**: nothing, or what the resolver of its request does
    to one item. -/
theorem step_cases (h : Run effect C (start util t₀ reqs) c) (hs : Step effect C c e c') (k : Json) :
    c'.store.get k = c.store.get k ∨
    (∃ id now ctx, reqs e.who = .createPost id now ctx ∧ k = .str id ∧ c.store.get k = none) ∨
    (∃ ctx u item, reqs e.who = .updatePost ctx ∧ ctx.username = some u ∧
      c.store.get k = some item ∧ item "author" = some (.str u) ∧
      c'.store.get k = some (applySets item (newText ctx.args))) ∨
    ∃ ctx u item, reqs e.who = .deletePost ctx ∧ ctx.username = some u ∧
      c.store.get k = some item ∧ item "author" = some (.str u) ∧ c'.store.get k = none := by
  have hop := step_operation h hs
  rcases hs.effect.state with hst | hst
  · exact Or.inl (by rw [hst])
  · rw [hst]
    cases hreq : reqs e.who with
    | createPost id now ctx =>
        rw [hreq] at hop
        rcases createPost_execute hop c.store with ⟨e', he⟩ | ⟨hnone, hframe⟩
        · exact Or.inl (by rw [he])
        · by_cases hk : k = .str id
          · subst hk
            exact Or.inr (Or.inl ⟨id, now, ctx, rfl, rfl, hnone⟩)
          · exact Or.inl (hframe k hk)
    | getPost ctx =>
        rw [hreq] at hop
        exact Or.inl (by rw [getPost_execute hop c.store])
    | updatePost ctx =>
        rw [hreq] at hop
        rcases updatePost_execute hop c.store with
          ⟨e', he⟩ | ⟨u, k', item, hu, _, hget, hauthor, hset, hframe⟩
        · exact Or.inl (by rw [he])
        · by_cases hk : k = k'
          · subst hk
            exact Or.inr (Or.inr (Or.inl ⟨ctx, u, item, rfl, hu, hget, hauthor, hset⟩))
          · exact Or.inl (hframe k hk)
    | deletePost ctx =>
        rw [hreq] at hop
        rcases deletePost_execute hop c.store with
          ⟨e', he⟩ | ⟨u, k', item, hu, hget, hauthor, hgone, hframe⟩
        · exact Or.inl (by rw [he])
        · by_cases hk : k = k'
          · subst hk
            exact Or.inr (Or.inr (Or.inr ⟨ctx, u, item, rfl, hu, hget, hauthor, hgone⟩))
          · exact Or.inl (hframe k hk)

/-- The attributes of an item that no resolver changes. -/
def fixedAttributes : List String := ["id", "author", "createdAt"]

theorem newText_fixed (args : Args) {a : String} (ha : a ∈ fixedAttributes) :
    a ∉ (newText args).map Prod.fst := by
  simp only [fixedAttributes, List.mem_cons, List.not_mem_nil, or_false] at ha
  obtain ⟨id, _ | title, _ | content⟩ := args <;> rcases ha with rfl | rfl | rfl <;> simp [newText]

/-- **One step**: an item that stays keeps its id, author and date; -/
theorem step_fixed (h : Run effect C (start util t₀ reqs) c) (hs : Step effect C c e c')
    {item item' : Attrs Json} (hk : c.store.get k = some item) (hk' : c'.store.get k = some item') :
    ∀ a ∈ fixedAttributes, item' a = item a := by
  intro a ha
  rcases step_cases h hs k with hsame | ⟨_, _, _, _, _, hnone⟩ | ⟨ctx, _, item₀, _, _, hget, _, hset⟩ |
    ⟨_, _, _, _, _, _, _, hgone⟩
  · rw [hsame, hk, Option.some.injEq] at hk'
    rw [hk']
  · rw [hnone] at hk
    cases hk
  · have hitem : item₀ = item := Option.some.inj (hget.symm.trans hk)
    have hitem' : applySets item₀ (newText ctx.args) = item' := Option.some.inj (hset.symm.trans hk')
    rw [← hitem', hitem, applySets_of_notMem (newText_fixed ctx.args ha)]
  · rw [hgone] at hk'
    cases hk'

/-- an item is changed or removed by its author only; -/
theorem step_author (h : Run effect C (start util t₀ reqs) c) (hs : Step effect C c e c')
    {item : Attrs Json} (hk : c.store.get k = some item) (hne : c'.store.get k ≠ some item) :
    ∃ u, (reqs e.who).ctx.username = some u ∧ item "author" = some (.str u) ∧
      ∀ id now ctx, reqs e.who ≠ .createPost id now ctx := by
  rcases step_cases h hs k with hsame | ⟨_, _, _, _, _, hnone⟩ |
    ⟨ctx, u, item₀, hreq, hu, hget, hauthor, _⟩ | ⟨ctx, u, item₀, hreq, hu, hget, hauthor, _⟩
  · exact absurd (hsame.trans hk) hne
  · rw [hnone] at hk
    cases hk
  · have hitem : item₀ = item := Option.some.inj (hget.symm.trans hk)
    rw [hreq]
    exact ⟨u, hu, hitem ▸ hauthor, fun _ _ _ hcreate => by cases hcreate⟩
  · have hitem : item₀ = item := Option.some.inj (hget.symm.trans hk)
    rw [hreq]
    exact ⟨u, hu, hitem ▸ hauthor, fun _ _ _ hcreate => by cases hcreate⟩

/-- and an item comes into the table by the createPost of its id only. -/
theorem step_appears (h : Run effect C (start util t₀ reqs) c) (hs : Step effect C c e c')
    (hk : c.store.get k = none) (hk' : c'.store.get k ≠ none) :
    ∃ id now ctx, reqs e.who = .createPost id now ctx ∧ k = .str id := by
  rcases step_cases h hs k with hsame | ⟨id, now, ctx, hreq, hid, _⟩ | ⟨_, _, _, _, _, hget, _, _⟩ |
    ⟨_, _, _, _, _, hget, _, _⟩
  · exact absurd (hsame.trans hk) hk'
  · exact ⟨id, now, ctx, hreq, hid⟩
  · rw [hk] at hget
    cases hget
  · rw [hk] at hget
    cases hget

end Runs

/-! ## 4. What holds in every run -/

/-- Every step finds an item under `k`. -/
def Present (k : Json) : Guard ι Operation Answer Posts := fun _ _ _ t => t.get k ≠ none

/-- No step is the createPost of the id `k`. -/
def NotCreated (reqs : ι → Request) (k : Json) : Guard ι Operation Answer Posts := fun _ i _ _ =>
  ∀ id now ctx, reqs i = .createPost id now ctx → k ≠ .str id

/-- **What the posts store promises**, for the requests `reqs` in any order from the table `t₀`. -/
structure StoreSafe [DecidableEq ι] (util : Util) (t₀ : Posts) (reqs : ι → Request) : Prop where
  /-- createPost overwrites nothing. -/
  create : ∀ c e c', Run effect free (start util t₀ reqs) c → Step effect free c e c' →
    ∀ id now ctx, reqs e.who = .createPost id now ctx → ∀ k item, c.store.get k = some item →
      c'.store.get k = some item
  /-- As long as an item is there, its id, author and date stay. -/
  fixed : ∀ c c' k item item', Run effect free (start util t₀ reqs) c →
    Run effect (Present k) c c' → c.store.get k = some item → c'.store.get k = some item' →
      ∀ a ∈ fixedAttributes, item' a = item a
  /-- An item is changed or removed under the username that is its author. -/
  author : ∀ c e c' k item, Run effect free (start util t₀ reqs) c → Step effect free c e c' →
    c.store.get k = some item → c'.store.get k ≠ some item →
      ∃ u, (reqs e.who).ctx.username = some u ∧ item "author" = some (.str u)
  /-- What is not there does not come back but by a createPost of its id. -/
  gone : ∀ c c' k, Run effect free (start util t₀ reqs) c → c.store.get k = none →
    Run effect (NotCreated reqs k) c c' → c'.store.get k = none
  /-- An update that is applied sets the arguments that are not undefined, and nothing else. -/
  update : ∀ c e c' ctx result, Run effect free (start util t₀ reqs) c → Step effect free c e c' →
    reqs e.who = .updatePost ctx → execute e.op c.store = (.ok result, c'.store) →
      ∃ k item item', (ctx.args.id = some k ∨ ctx.args.id = none ∧ util.undefined = some k) ∧
        c.store.get k = some item ∧ c'.store.get k = some item' ∧
        item' "title" = (ctx.args.title <|> item "title") ∧
        item' "content" = (ctx.args.content <|> item "content") ∧
        (∀ a, a ≠ "title" → a ≠ "content" → item' a = item a) ∧
        ∀ k', k' ≠ k → c'.store.get k' = c.store.get k'

/-- An item that was given some of the two texts. -/
theorem applySets_newText (item : Attrs Json) (args : Args) :
    applySets item (newText args) "title" = (args.title <|> item "title") ∧
      applySets item (newText args) "content" = (args.content <|> item "content") ∧
      ∀ a, a ≠ "title" → a ≠ "content" → applySets item (newText args) a = item a := by
  obtain ⟨id, _ | title, _ | content⟩ := args
  · exact ⟨rfl, rfl, fun _ _ _ => rfl⟩
  · refine ⟨by simp [newText], by simp [newText], fun a ht hc => ?_⟩
    exact applySets_of_notMem (by simp [newText, hc]) item
  · refine ⟨by simp [newText], by simp [newText], fun a ht hc => ?_⟩
    exact applySets_of_notMem (by simp [newText, ht]) item
  · refine ⟨by simp [newText], by simp [newText], fun a ht hc => ?_⟩
    exact applySets_of_notMem (by simp [newText, ht, hc]) item

section Safe

variable [DecidableEq ι] {util : Util} {t₀ : Posts} {reqs : ι → Request} {c c' : State ι} {k : Json}

theorem run_fixed (h : Run effect free (start util t₀ reqs) c) (hr : Run effect (Present k) c c')
    {item item' : Attrs Json} (hk : c.store.get k = some item) (hk' : c'.store.get k = some item') :
    ∀ a ∈ fixedAttributes, item' a = item a := by
  induction hr generalizing item' with
  | start =>
      rw [hk, Option.some.injEq] at hk'
      exact fun a _ => by rw [hk']
  | step hr hs ih =>
      -- the item is there at every step in between
      obtain ⟨mid, hmid⟩ := Option.ne_none_iff_exists'.mp hs.guard
      intro a ha
      exact (step_fixed (h.trans hr.free) hs.free hmid hk' a ha).trans (ih hmid a ha)

theorem run_gone (h : Run effect free (start util t₀ reqs) c)
    (hr : Run effect (NotCreated reqs k) c c') (hk : c.store.get k = none) :
    c'.store.get k = none := by
  induction hr with
  | start => exact hk
  | step hr hs ih =>
      by_contra hne
      obtain ⟨id, now, ctx, hreq, hid⟩ := step_appears (h.trans hr.free) hs.free ih hne
      exact hs.guard id now ctx hreq hid

/-- **The posts store keeps its promises**, whoever sends whichever requests in any order. -/
theorem storeSafe (util : Util) (t₀ : Posts) (reqs : ι → Request) : StoreSafe util t₀ reqs where
  create c e c' h hs id now ctx hreq k item hk := by
    by_contra hne
    obtain ⟨_, _, _, hnot⟩ := step_author h hs hk hne
    exact hnot id now ctx hreq
  fixed c c' k item item' h hr hk hk' := run_fixed h hr hk hk'
  author c e c' k item h hs hk hne := by
    obtain ⟨u, hu, hauthor, _⟩ := step_author h hs hk hne
    exact ⟨u, hu, hauthor⟩
  gone c c' k h hk hr := run_gone h hr hk
  update c e c' ctx result h hs hreq happly := by
    have hop := step_operation h hs
    rw [hreq] at hop
    rcases updatePost_execute hop c.store with
      ⟨e', he⟩ | ⟨u, k, item, _, hid, hk, _, hget, hframe⟩
    · rw [happly] at he
      cases he
    · rw [happly] at hget hframe
      obtain ⟨htitle, hcontent, hrest⟩ := applySets_newText item ctx.args
      exact ⟨k, item, _, hid, hk, hget, htitle, hcontent, hrest, hframe⟩

end Safe

end AppSync
