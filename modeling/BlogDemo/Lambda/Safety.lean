/-
  File:      BlogDemo/Lambda/Safety.lean
  Subject:   WHAT HOLDS IN EVERY RUN of the post handlers, and what an UpdateItem between the
             handlers' reads and writes breaks.

  * **`createPost_ids_fresh`** -- no id is written twice, and every id was given out by the counter;
  * `DeletedForGood`, **`deletedForGood_of_present`** -- deleted posts stay away and every post is
    whole, as long as no update runs after the deletion of its item;
  * `OwnerWrites`, **`ownerWrites_of_owned`** -- a post is written only under the `sub` that created
    it, as long as no request without `sub` finds an item without owner;
  * `race` -- the order of two updates and a deletion in which both fail.
-/
import BlogDemo.Lambda.Machine

namespace Lambda

open Js Atomic Dynamo Attrs

variable {ι : Type} [DecidableEq ι]

/-- Every nominal call is one that may happen. -/
theorem effect_done (c : Command) (db : Db) : effect c db (Db.exec c db).1 (Db.exec c db).2 := .done

/-! ## 1. Ids -/

section Ids

variable {reqs : ι → Request} {c c' : State ι} {e : Sent ι}

theorem free_run (h : Run effect free (start reqs) c) :
    (posts False False reqs).inv c.store c.hist :=
  posts_run False False (fun h => h.elim) (fun h => h.elim) h

theorem free_step (h : Run effect free (start reqs) c) (hs : Step effect free c e c') :
    Guaranteed False (subOf (reqs e.who).event) c.hist e.op :=
  posts_step False False (fun h => h.elim) (fun h => h.elim) h hs

/-- The puts of a run have pairwise different ids. -/
theorem puts_pairwise (h : Run effect free (start reqs) c) :
    c.hist.Pairwise fun e e' => ∀ item item', e.op = .put ⟨"Posts", item⟩ →
      e'.op = .put ⟨"Posts", item'⟩ → Attrs.of item "id" ≠ Attrs.of item' "id" := by
  induction h with
  | start => exact List.Pairwise.nil
  | @step c c' e h hs ih =>
      rw [hs.hist, List.pairwise_append]
      refine ⟨ih, List.pairwise_singleton _ _, fun e₀ he₀ e₁ he₁ item item' hp hp' => ?_⟩
      rw [List.mem_singleton] at he₁
      subst he₁
      have hg := free_step h hs
      rw [hp'] at hg
      obtain ⟨i, op, r⟩ := e₀
      cases hp
      exact hg i item ⟨r, he₀⟩

/-- What is in Posts was put under a number that was given out. -/
theorem present_issued (h : Run effect free (start reqs) c) {k : Json} {item : Attrs Json}
    (hk : c.store.posts.get k = some item) :
    ∃ i post, PutBy i post c.hist ∧ Attrs.of post "id" = some k := by
  obtain ⟨_, hb⟩ := free_run h
  obtain ⟨i, post, hput, hid, _⟩ := hb k item hk
  exact ⟨i, post, hput, hid⟩

/-- The id of a put is the decimal string of a number up to the counter. -/
theorem put_number (h : Run effect free (start reqs) c) {i : ι} {post : List (String × Json)}
    (hput : PutBy i post c.hist) :
    ∃ n, Attrs.of post "id" = some (.str (toString n)) ∧ 1 ≤ n ∧ n ≤ c.store.counterValue := by
  obtain ⟨⟨n, hn, hl⟩, _⟩ := free_run h
  obtain ⟨_, _, m, _, hm, hpost⟩ := hl.issued i post hput
  have hlt := hl.below i m hm
  exact ⟨m + 1, isPost_id hpost, by omega, by rw [counterAt_value hn]; omega⟩

/-- **Ids are given out once.** In every run the puts have different ids; a put finds nothing under
    its id, now or at any time before; and every id that was ever in Posts is the decimal string of
    a number between 1 and the counter. -/
theorem createPost_ids_fresh (h : Run effect free (start reqs) c) :
    (c.hist.Pairwise fun e e' => ∀ item item', e.op = .put ⟨"Posts", item⟩ →
      e'.op = .put ⟨"Posts", item'⟩ → Attrs.of item "id" ≠ Attrs.of item' "id") ∧
    (∀ e c', Step effect free c e c' → ∀ item, e.op = .put ⟨"Posts", item⟩ →
      ∃ k, Attrs.of item "id" = some k ∧ c.store.posts.get k = none ∧
        ∀ c₀, Run effect free (start reqs) c₀ → Run effect free c₀ c → c₀.store.posts.get k = none) ∧
    ∀ c₀ k item, Run effect free (start reqs) c₀ → Run effect free c₀ c →
      c₀.store.posts.get k = some item →
        ∃ n, k = .str (toString n) ∧ 1 ≤ n ∧ n ≤ c.store.counterValue := by
  refine ⟨puts_pairwise h, fun e c' hs item hop => ?_, fun c₀ k item h₀ hr hk => ?_⟩
  · have hput : PutBy e.who item c'.hist := by
      rw [hs.hist]
      exact putBy_append.mpr (Or.inr ⟨rfl, hop⟩)
    obtain ⟨n, hid, _, _⟩ := put_number (.step h hs) hput
    have hg := free_step h hs
    rw [hop] at hg
    -- an item under this id, at any time, would have been put before
    have hnever : ∀ c₀, Run effect free (start reqs) c₀ → Run effect free c₀ c →
        c₀.store.posts.get (.str (toString n)) = none := by
      intro c₀ h₀ hr
      cases hget : c₀.store.posts.get (.str (toString n)) with
      | none => rfl
      | some item₀ =>
          obtain ⟨i, post, ⟨r, hp⟩, hid'⟩ := present_issued h₀ hget
          exact absurd (hid'.trans hid.symm) (hg i post ⟨r, hr.hist_sub _ hp⟩)
    exact ⟨_, hid, hnever c h .start, hnever⟩
  · obtain ⟨i, post, ⟨r, hp⟩, hid⟩ := present_issued h₀ hk
    obtain ⟨n, hid', h1, hn⟩ := put_number h ⟨r, hr.hist_sub _ hp⟩
    rw [hid', Option.some.injEq] at hid
    exact ⟨n, hid.symm, h1, hn⟩

end Ids

def authorClaims : Json := .obj [("sub", .str "u1"), ("username", .str "ann")]

def textBody (title content : String) : Option Text :=
  some (.json (.obj [("title", .str title), ("content", .str content)]))

/-- Two posts at the same time. -/
def twins (second : Bool) : Request :=
  .createPost "2025-08-01T00:00:00.000Z"
    ⟨none, textBody (if second then "c" else "a") "b", some authorClaims⟩

def twinsAt (order : List Bool) : State Bool := (start twins).sched Db.exec order

/-- Both have taken a number, and the second is stored before the first. -/
def overtaken : State Bool := twinsAt [false, true, true, false]

/-- Neither has the other's id, and both have one that the counter gave out. -/
theorem twins_ids_fresh :
    (overtaken.hist.Pairwise fun e e' => ∀ item item', e.op = .put ⟨"Posts", item⟩ →
      e'.op = .put ⟨"Posts", item'⟩ → Attrs.of item "id" ≠ Attrs.of item' "id") ∧
    ∀ k, k = Json.str "1" ∨ k = .str "2" →
      ∃ n, k = .str (toString n) ∧ 1 ≤ n ∧ n ≤ overtaken.store.counterValue := by
  have hrun : Run effect free (start twins) overtaken := sched_run effect_done _ _
  refine ⟨(createPost_ids_fresh hrun).1, fun k hk => ?_⟩
  obtain ⟨item, hitem⟩ : ∃ item, overtaken.store.posts.get k = some item := by
    rcases hk with rfl | rfl
    · exact ⟨_, rfl⟩
    · exact ⟨_, rfl⟩
  exact (createPost_ids_fresh hrun).2.2 overtaken k item hrun .start hitem

/-! ## 2. Deletion -/

/-- In every run whose steps all meet `C`, each item of Posts has the six attributes createPost
    writes, and an id whose item was removed is never in Posts again. -/
def DeletedForGood (C : Guard ι Command Answer Db) (reqs : ι → Request) : Prop :=
  (∀ c, Run effect C (start reqs) c → ∀ k item, c.store.posts.get k = some item →
    ∀ a ∈ postAttributes, item a ≠ none) ∧
  ∀ c e c' c'' k, Run effect C (start reqs) c → Step effect C c e c' →
    c.store.posts.get k ≠ none → c'.store.posts.get k = none → Run effect C c' c'' →
      c''.store.posts.get k = none

section Deletion

variable {reqs : ι → Request} {c c' : State ι} {e : Sent ι}

theorem present_run (h : Run effect UpdatesPresent (start reqs) c) :
    (posts False True reqs).inv c.store c.hist :=
  posts_run False True (fun h => h.elim) (fun _ _ _ _ _ hc => hc) h

/-- A DeleteCommand brings nothing into Posts. -/
theorem delete_get (d : DeleteCommand) (db : Db) {k : Json} (h : db.posts.get k = none) :
    (Db.exec (.delete d) db).2.posts.get k = none := by
  by_cases hw : (Command.delete d).writes = some k
  · have hd : (if d.tableName = "Posts" then some d.key.2 else none) = some k := hw
    by_cases ht : d.tableName = "Posts"
    · rw [if_pos ht, Option.some.injEq] at hd
      subst hd
      rw [exec_posts (c := .delete d) db ht, Command.onTable]
      split
      · rename_i t' ht'
        exact (deleteItem_spec ht').2.2.1
      · exact h
    · rw [if_neg ht] at hd
      cases hd
  · rw [posts_frame _ db hw, h]

/-- An id that was put and is gone stays so: its put is over, and updates find their items. -/
theorem gone_step (h : Run effect UpdatesPresent (start reqs) c)
    (hs : Step effect UpdatesPresent c e c') {k : Json}
    (hput : ∃ i post, PutBy i post c.hist ∧ Attrs.of post "id" = some k)
    (hk : c.store.posts.get k = none) : c'.store.posts.get k = none := by
  by_cases hw : e.op.writes = some k
  · have hg := posts_step False True (fun h => h.elim)
      (fun _ _ _ _ _ hc => hc) h hs
    obtain ⟨j, post, hp, hid⟩ := hput
    cases hs with
    | call i op next r s' hpool hc he =>
        cases op with
        | get g => cases hw
        | put p =>
            have hp' : Attrs.of p.item "id" = some k := by
              by_cases ht : p.tableName = "Posts"
              · rwa [Command.writes, if_pos ht] at hw
              · rw [Command.writes, if_neg ht] at hw
                cases hw
            exact absurd (hid.trans hp'.symm) (hg j post hp)
        | update u =>
            by_cases ht : u.tableName = "Posts"
            · rw [Command.writes, if_pos ht, Option.some.injEq] at hw
              exact absurd (hw ▸ hk) (hc u rfl ht)
            · rw [Command.writes, if_neg ht] at hw
              cases hw
        | delete d =>
            rcases he.state with hs | hs
            · exact hs ▸ hk
            · exact hs ▸ delete_get d c.store hk
  · rw [step_frame hs hw, hk]

theorem gone_run {k : Json} (h : Run effect UpdatesPresent (start reqs) c)
    (hr : Run effect UpdatesPresent c c')
    (hput : ∃ i post, PutBy i post c.hist ∧ Attrs.of post "id" = some k)
    (hk : c.store.posts.get k = none) : c'.store.posts.get k = none := by
  obtain ⟨i, post, ⟨r, hp⟩, hid⟩ := hput
  induction hr with
  | start => exact hk
  | step hr hs ih => exact gone_step (h.trans hr) hs ⟨i, post, ⟨r, hr.hist_sub _ hp⟩, hid⟩ ih

/-- **Deleted posts stay away and every post is whole**, in every run in which each UpdateItem
    finds its item. -/
theorem deletedForGood_of_present (reqs : ι → Request) : DeletedForGood UpdatesPresent reqs := by
  refine ⟨fun c h k item hk => ?_, fun c e c' c'' k h hs hk hk' hr => ?_⟩
  · obtain ⟨_, hb⟩ := present_run h
    obtain ⟨_, _, _, _, _, hall⟩ := hb k item hk
    exact hall trivial
  · obtain ⟨item, hget⟩ := Option.ne_none_iff_exists'.mp hk
    obtain ⟨i, post, ⟨r, hp⟩, hid, _⟩ := (present_run h).2 k item hget
    exact gone_run (.step h hs) hr ⟨i, post, ⟨r, (Run.single hs).hist_sub _ hp⟩, hid⟩ hk'

end Deletion

/-! ## 3. Authorization -/

/-- In every run whose steps all meet `C`: once createPost has stored an item under `k`, whatever
    changes or removes what is under `k` is a request with a `sub`, the `userId` that was stored. -/
def OwnerWrites (C : Guard ι Command Answer Db) (reqs : ι → Request) : Prop :=
  ∀ c₀ e₀ c₁ c e c' k item, Run effect C (start reqs) c₀ → Step effect C c₀ e₀ c₁ →
    e₀.op = .put ⟨"Posts", item⟩ → c₁.store.posts.get k = some (Attrs.of item) →
    Attrs.of item "id" = some k →
    Run effect C c₁ c → Step effect C c e c' → c'.store.posts.get k ≠ c.store.posts.get k →
      ∃ sub, subOf (reqs e.who).event = some sub ∧ Attrs.of item "userId" = some sub

/-- **A post is written only under the `sub` that created it**, in every run in which no updatePost
    without `sub` reads an item without `userId`. -/
theorem ownerWrites_of_owned (reqs : ι → Request) : OwnerWrites (ReadsOwned reqs) reqs := by
  intro c₀ e₀ c₁ c e c' k item h₀ hs₀ hop _ hid hr hs hne
  have h : Run effect (ReadsOwned reqs) (start reqs) c := (Run.step h₀ hs₀).trans hr
  have hw : e.op.writes = some k := by
    by_contra hw
    exact hne (step_frame hs hw)
  have hput₁ : PutBy e₀.who item c₁.hist := by
    rw [hs₀.hist]
    exact putBy_append.mpr (Or.inr ⟨rfl, hop⟩)
  have hput : PutBy e₀.who item c.hist := hput₁.imp fun _ hm => hr.hist_sub _ hm
  obtain ⟨⟨n, _, hl⟩, _⟩ :=
    posts_run True False (fun _ _ _ _ _ hc => hc) (fun h => h.elim) h
  have hg := posts_step True False (fun _ _ _ _ _ hc => hc)
    (fun h => h.elim) h hs
  -- the only put of `k` is over, so the request was authorised by what it read
  have hauth : Authorised True (subOf (reqs e.who).event) k c.hist := by
    obtain ⟨i, op, r⟩ := e
    cases op with
    | get g => cases hw
    | update u => exact hg k hw
    | delete d => exact hg k hw
    | put p =>
        by_cases ht : p.tableName = "Posts"
        · have hp : Attrs.of p.item "id" = some k := by
            have hw' := hw
            simp only [Command.writes] at hw'
            rwa [if_pos ht] at hw'
          exact absurd (hid.trans hp.symm) (hg e₀.who item hput)
        · simp only [Command.writes, if_neg ht] at hw
          cases hw
  obtain ⟨j, post, hpost, hid', howner⟩ := hauth
  obtain ⟨rfl, rfl⟩ := hl.put_unique hpost hput (hid'.trans hid.symm)
  rcases howner with howner | ⟨_, hnot⟩
  · obtain ⟨_, _, m, _, _, hp⟩ := hl.issued _ _ hput
    obtain ⟨sub, _, huser⟩ := isPost_user hp
    exact ⟨sub, howner ▸ huser, huser⟩
  · exact absurd trivial hnot

/-! ## 4. The race -/

/-- A post, an update and a deletion by its author, and an update whose claims are empty. -/
def race : Fin 4 → Request
  | 0 => .createPost "2025-08-01T00:00:00.000Z" ⟨none, textBody "a" "b", some authorClaims⟩
  | 1 => .updatePost ⟨some "1", textBody "c" "d", some authorClaims⟩
  | 2 => .deletePost ⟨some "1", none, some authorClaims⟩
  | 3 => .updatePost ⟨some "1", textBody "e" "f", some (.obj [])⟩

/-- The machine after the requests made their next commands in this order. -/
def raceAt (order : List (Fin 4)) : State (Fin 4) := (start race).sched Db.exec order

theorem raceAt_run (order : List (Fin 4)) : Run effect free (start race) (raceAt order) :=
  sched_run effect_done _ _

theorem raceAt_rest (order rest : List (Fin 4)) :
    Run effect free (raceAt order) (raceAt (order ++ rest)) := sched_rest effect_done _ _ _

/-- The next command of request `i` in the race. -/
theorem raceAt_step (order : List (Fin 4)) (i : Fin 4) {command : Command}
    {next : Except Error Output → Handler} (hp : (raceAt order).pool i = .call command next) :
    Step effect free (raceAt order) ⟨i, command, (Db.exec command (raceAt order).store).1⟩
      (raceAt (order ++ [i])) := sched_step effect_done _ _ hp

/-- The author's update was checked before the deletion and runs after it: the post is back, and
    has neither owner nor date. -/
theorem race_not_deletedForGood : ¬ DeletedForGood free race := by
  intro h
  have hs : Step effect free (raceAt [0, 0, 1, 2]) _ (raceAt [0, 0, 1, 2, 2]) :=
    raceAt_step [0, 0, 1, 2] 2 rfl
  have hgone : (raceAt [0, 0, 1, 2, 2]).store.posts.get (.str "1") = none := by decide
  have hback : (raceAt [0, 0, 1, 2, 2, 1]).store.posts.get (.str "1") = none :=
    h.2 _ _ _ _ (.str "1") (raceAt_run _) hs (by decide) hgone (raceAt_rest [0, 0, 1, 2, 2] [1])
  revert hback
  decide

/-- After the race the item has no owner, and a request without `sub` may write it. -/
theorem race_not_ownerWrites : ¬ OwnerWrites free race := by
  intro h
  have hs₀ : Step effect free (raceAt [0]) _ (raceAt [0, 0]) := raceAt_step [0] 0 rfl
  have hs : Step effect free (raceAt [0, 0, 1, 2, 2, 1, 3]) _ (raceAt [0, 0, 1, 2, 2, 1, 3, 3]) :=
    raceAt_step [0, 0, 1, 2, 2, 1, 3] 3 rfl
  have hne : (raceAt [0, 0, 1, 2, 2, 1, 3, 3]).store.posts.get (.str "1") ≠
      (raceAt [0, 0, 1, 2, 2, 1, 3]).store.posts.get (.str "1") := by
    intro heq
    have htitle := congrArg (·.bind (· "title")) heq
    revert htitle
    decide
  obtain ⟨sub, hsub, _⟩ := h _ _ _ _ _ _ (.str "1") _ (raceAt_run [0]) hs₀ rfl rfl rfl
    (raceAt_rest [0, 0] [1, 2, 2, 1, 3]) hs hne
  cases hsub

end Lambda
