/-
  File:      BlogDemo/Lambda/Machine.lean
  Subject:   ALL THE POST HANDLERS AT ONCE over one database: any family of requests, their commands
             interleaved in any order, each command taking effect once, not at all, or with its
             answer lost.

  * `Request`, `effect`, `start` -- the machine of the requests, from empty tables;
  * `Ledger` -- what the history says of the numbers given out and the items put;
  * `Backed` -- every item of Posts comes from the put of its own id;
  * **`keeps_handler`** -- each handler keeps the specification `posts`, so (`posts_run`,
    `posts_step`) every run keeps it.
-/
import BlogDemo.Lambda.Posts
import BlogDemo.Lib.Interleave
import Mathlib

namespace Lambda

open Js Atomic Dynamo Attrs
open Prog (Final final_ret)

/-! ## 1. Requests and the machine -/

/-- A request to one of the handlers; `now` is the clock createPost reads. -/
inductive Request where
  | createPost (now : String) (event : Event)
  | getPost (event : Event)
  | updatePost (event : Event)
  | deletePost (event : Event)

def Request.event : Request → Event
  | .createPost _ event => event
  | .getPost event => event
  | .updatePost event => event
  | .deletePost event => event

def Request.handler : Request → Handler
  | .createPost now event => Lambda.createPost now event
  | .getPost event => Lambda.getPost event
  | .updatePost event => Lambda.updatePost event
  | .deletePost event => Lambda.deletePost event

/-- A command has its effect and its answer, or fails before it or after it. -/
def effect : Effect Command Answer Db := Faulty Db.exec fun _ r => ∃ e, r = .error e

variable {ι : Type}

abbrev State (ι : Type) := Config ι Command Answer Response Db

/-- One command of a run: the request, the command and its answer. -/
abbrev Sent (ι : Type) := Call ι Command Answer

/-- Before the first command: both tables are empty. -/
def start (reqs : ι → Request) : State ι := Config.init Db.empty fun i => (reqs i).handler

/-! ## 2. The numbers given out and the items put -/

/-- Request `i` was answered that the counter stood at `m`, and now stands at `m + 1`. -/
def Issued (i : ι) (m : Nat) (h : List (Sent ι)) : Prop :=
  ⟨i, .update counterUpdate, .ok { attributes := some (Attrs.of (nextValue m)) }⟩ ∈ h

/-- Request `i` sent the PutCommand of `item`. -/
def PutBy (i : ι) (item : List (String × Json)) (h : List (Sent ι)) : Prop :=
  ∃ r, ⟨i, .put ⟨"Posts", item⟩, r⟩ ∈ h

theorem Issued.grows {i : ι} {m : Nat} {h : List (Sent ι)} (e : Sent ι) (hi : Issued i m h) :
    Issued i m (h ++ [e]) := List.mem_append_left _ hi

theorem PutBy.grows {i : ι} {item : List (String × Json)} {h : List (Sent ι)} (e : Sent ι)
    (hp : PutBy i item h) : PutBy i item (h ++ [e]) :=
  hp.imp fun _ hr => List.mem_append_left _ hr

theorem issued_append {i : ι} {m : Nat} {h : List (Sent ι)} {e : Sent ι} :
    Issued i m (h ++ [e]) ↔ Issued i m h ∨
      e = ⟨i, .update counterUpdate, .ok { attributes := some (Attrs.of (nextValue m)) }⟩ := by
  unfold Issued
  rw [List.mem_append, List.mem_singleton, eq_comm (b := e)]

theorem putBy_append {i : ι} {item : List (String × Json)} {h : List (Sent ι)} {e : Sent ι} :
    PutBy i item (h ++ [e]) ↔ PutBy i item h ∨ e.who = i ∧ e.op = .put ⟨"Posts", item⟩ := by
  unfold PutBy
  constructor
  · intro h'
    obtain ⟨r, hr⟩ := h'
    rcases List.mem_append.mp hr with hr | hr
    · exact Or.inl ⟨r, hr⟩
    · rw [List.mem_singleton] at hr
      exact Or.inr (hr ▸ ⟨rfl, rfl⟩)
  · rintro (⟨r, hr⟩ | ⟨rfl, hop⟩)
    · exact ⟨r, List.mem_append_left _ hr⟩
    · obtain ⟨i, op, r⟩ := e
      cases hop
      exact ⟨r, List.mem_append_right _ (List.mem_singleton.mpr rfl)⟩

/-- The numbers determine what they were given out from. -/
theorem nextValue_inj {m n : Nat} (h : Attrs.of (nextValue m) = Attrs.of (nextValue n)) : m = n := by
  have hv := congrFun h "value"
  simp [nextValue, Attrs.of] at hv
  omega

theorem isPost_id {ev : Event} {id : String} {item : List (String × Json)} (h : IsPost ev id item) :
    Attrs.of item "id" = some (.str id) := by
  obtain ⟨title, content, sub, userName, now, _, rfl⟩ := h
  rfl

theorem isPost_user {ev : Event} {id : String} {item : List (String × Json)}
    (h : IsPost ev id item) : ∃ sub, subOf ev = some sub ∧ Attrs.of item "userId" = some sub := by
  obtain ⟨title, content, sub, userName, now, hsub, rfl⟩ := h
  exact ⟨sub, hsub, rfl⟩

/-- The six attributes createPost writes. -/
def postAttributes : List String := ["id", "title", "content", "userId", "userName", "createdAt"]

theorem isPost_complete {ev : Event} {id : String} {item : List (String × Json)}
    (h : IsPost ev id item) : ∀ a ∈ postAttributes, Attrs.of item a ≠ none := by
  obtain ⟨title, content, sub, userName, now, _, rfl⟩ := h
  simp [postAttributes, Attrs.of]

/-- **The history with the counter at `n`**: each number below `n` went to one request at most,
    and each put is that of a createPost, once, under the number it was given. -/
structure Ledger (reqs : ι → Request) (n : Nat) (h : List (Sent ι)) : Prop where
  below : ∀ i m, Issued i m h → m < n
  owner : ∀ i j m, Issued i m h → Issued j m h → i = j
  once : ∀ i item item', PutBy i item h → PutBy i item' h → item = item'
  issued : ∀ i item, PutBy i item h → ∃ now ev m, reqs i = .createPost now ev ∧ Issued i m h ∧
    IsPost ev (toString (m + 1)) item

section Ledger

variable {reqs : ι → Request} {n : Nat} {h : List (Sent ι)} {i j : ι}

theorem ledger_nil : Ledger reqs 0 ([] : List (Sent ι)) where
  below _ _ hi := absurd hi List.not_mem_nil
  owner _ _ _ hi _ := absurd hi List.not_mem_nil
  once _ _ _ hp _ := absurd hp.choose_spec List.not_mem_nil
  issued _ _ hp := absurd hp.choose_spec List.not_mem_nil

/-- Two puts of one id are one put. -/
theorem Ledger.put_unique (hl : Ledger reqs n h) {item item' : List (String × Json)}
    (hp : PutBy i item h) (hp' : PutBy j item' h) (hid : Attrs.of item "id" = Attrs.of item' "id") :
    i = j ∧ item = item' := by
  obtain ⟨_, _, m, _, hm, hpost⟩ := hl.issued i item hp
  obtain ⟨_, _, m', _, hm', hpost'⟩ := hl.issued j item' hp'
  rw [isPost_id hpost, isPost_id hpost'] at hid
  have hmm : m = m' := by
    have hs : toString (m + 1) = toString (m' + 1) := by simpa using hid
    have := Nat.repr_injective hs
    omega
  subst hmm
  obtain rfl := hl.owner i j m hm hm'
  exact ⟨rfl, hl.once i item item' hp hp'⟩

/-- A command that neither is answered a number nor puts an item adds nothing. -/
theorem Ledger.quiet (hl : Ledger reqs n h) {e : Sent ι} {n' : Nat} (hn : n ≤ n')
    (hi : ∀ i m, e ≠ ⟨i, .update counterUpdate, .ok { attributes := some (Attrs.of (nextValue m)) }⟩)
    (hp : ∀ item, e.op ≠ .put ⟨"Posts", item⟩) : Ledger reqs n' (h ++ [e]) := by
  have hissued : ∀ i m, Issued i m (h ++ [e]) → Issued i m h := fun i m hm =>
    (issued_append.mp hm).resolve_right (hi i m)
  have hput : ∀ i item, PutBy i item (h ++ [e]) → PutBy i item h := fun i item hm =>
    (putBy_append.mp hm).resolve_right fun hop => hp item hop.2
  exact {
    below := fun i m hm => lt_of_lt_of_le (hl.below i m (hissued i m hm)) hn
    owner := fun i j m hm hm' => hl.owner i j m (hissued i m hm) (hissued j m hm')
    once := fun i item item' hm hm' => hl.once i item item' (hput i item hm) (hput i item' hm')
    issued := fun i item hm => by
      obtain ⟨now, ev, m, hreq, hm, hpost⟩ := hl.issued i item (hput i item hm)
      exact ⟨now, ev, m, hreq, hm.grows e, hpost⟩ }

/-- The counter moves on and its answer gives out the number it stood at. -/
theorem Ledger.count (hl : Ledger reqs n h) :
    Ledger reqs (n + 1) (h ++ [⟨i, .update counterUpdate,
      .ok { attributes := some (Attrs.of (nextValue n)) }⟩]) := by
  have hissued : ∀ j m, Issued j m (h ++ [⟨i, .update counterUpdate,
      .ok { attributes := some (Attrs.of (nextValue n)) }⟩]) → Issued j m h ∨ i = j ∧ n = m := by
    intro j m hm
    rcases issued_append.mp hm with hm | hm
    · exact Or.inl hm
    · simp only [Call.mk.injEq, heq_eq_eq, Except.ok.injEq, Output.mk.injEq, Option.some.injEq,
        true_and] at hm
      exact Or.inr ⟨hm.1, nextValue_inj hm.2⟩
  have hput : ∀ j item, PutBy j item (h ++ [⟨i, .update counterUpdate,
      .ok { attributes := some (Attrs.of (nextValue n)) }⟩]) → PutBy j item h := fun j item hm =>
    (putBy_append.mp hm).resolve_right fun hop => nomatch hop.2
  refine ⟨fun j m hm => ?_, fun j j' m hm hm' => ?_, fun j item item' hm hm' => ?_,
    fun j item hm => ?_⟩
  · rcases hissued j m hm with hm | ⟨_, rfl⟩
    · have := hl.below j m hm
      omega
    · omega
  · -- a number that was given out before is below `n`
    rcases hissued j m hm with hm | ⟨rfl, rfl⟩
    · rcases hissued j' m hm' with hm' | ⟨rfl, rfl⟩
      · exact hl.owner j j' m hm hm'
      · exact absurd (hl.below j n hm) (lt_irrefl n)
    · rcases hissued j' n hm' with hm' | ⟨rfl, _⟩
      · exact absurd (hl.below j' n hm') (lt_irrefl n)
      · rfl
  · exact hl.once j item item' (hput j item hm) (hput j item' hm')
  · obtain ⟨now, ev, m, hreq, hm, hpost⟩ := hl.issued j item (hput j item hm)
    exact ⟨now, ev, m, hreq, hm.grows _, hpost⟩

/-- A createPost that has not put yet puts the item of the number it was given. -/
theorem Ledger.put (hl : Ledger reqs n h) {now : String} {ev : Event} {m : Nat}
    {item : List (String × Json)} {r : Answer (.put ⟨"Posts", item⟩)}
    (hreq : reqs i = .createPost now ev) (hm : Issued i m h)
    (hpost : IsPost ev (toString (m + 1)) item) (hnot : ∀ item', ¬ PutBy i item' h) :
    Ledger reqs n (h ++ [⟨i, .put ⟨"Posts", item⟩, r⟩]) := by
  have hissued : ∀ j m, Issued j m (h ++ [⟨i, .put ⟨"Posts", item⟩, r⟩]) → Issued j m h :=
    fun j m hm => (issued_append.mp hm).resolve_right fun he => by cases he
  have hput : ∀ j item', PutBy j item' (h ++ [⟨i, .put ⟨"Posts", item⟩, r⟩]) →
      PutBy j item' h ∨ i = j ∧ item = item' := by
    intro j item' hp
    rcases putBy_append.mp hp with hp | ⟨hj, hop⟩
    · exact Or.inl hp
    · cases hop
      exact Or.inr ⟨hj, rfl⟩
  refine ⟨fun j m hm => hl.below j m (hissued j m hm),
    fun j j' m hm hm' => hl.owner j j' m (hissued j m hm) (hissued j' m hm'),
    fun j x x' hx hx' => ?_, fun j x hx => ?_⟩
  · rcases hput j x hx with hx | ⟨rfl, rfl⟩
    · rcases hput j x' hx' with hx' | ⟨rfl, rfl⟩
      · exact hl.once j x x' hx hx'
      · exact absurd hx (hnot x)
    · rcases hput i x' hx' with hx' | ⟨_, rfl⟩
      · exact absurd hx' (hnot x')
      · rfl
  · rcases hput j x hx with hx | ⟨rfl, rfl⟩
    · obtain ⟨now, ev, m, hreq, hm, hpost⟩ := hl.issued j x hx
      exact ⟨now, ev, m, hreq, hm.grows _, hpost⟩
    · exact ⟨now, ev, m, hreq, hm.grows _, hpost⟩

end Ledger

/-! ## 3. The items of Posts -/

section Backed

variable {full : Prop} {db db' : Db} {h : List (Sent ι)} {e : Sent ι} {k : Json}

/-- **Every item of Posts comes from the put of its id**: it carries the owner that was put, or
    none; where `full` is asked for, it has all the attributes createPost writes. -/
def Backed (full : Prop) (db : Db) (h : List (Sent ι)) : Prop :=
  ∀ k item, db.posts.get k = some item → ∃ i post, PutBy i post h ∧
    Attrs.of post "id" = some k ∧
    (item "userId" = none ∨ item "userId" = Attrs.of post "userId") ∧
    (full → ∀ a ∈ postAttributes, item a ≠ none)

theorem Backed.same (hb : Backed full db h) (hp : db'.posts = db.posts) :
    Backed full db' (h ++ [e]) := by
  intro k item hk
  rw [hp] at hk
  obtain ⟨i, post, hput, hrest⟩ := hb k item hk
  exact ⟨i, post, hput.grows e, hrest⟩

theorem Backed.put (hb : Backed full db h) {i : ι} {ev : Event} {id : String}
    {item : List (String × Json)} (hpost : IsPost ev id item) (hk : Attrs.of item "id" = some k)
    (he : PutBy i item (h ++ [e])) : Backed full (db.putPost k (Attrs.of item) hk) (h ++ [e]) := by
  intro k' item' hk'
  rcases db.posts.of_put (h := hk) hk' with ⟨rfl, rfl⟩ | ⟨_, hk'⟩
  · exact ⟨i, item, he, hk, Or.inr rfl, fun _ => isPost_complete hpost⟩
  · obtain ⟨j, post, hput, hrest⟩ := hb k' item' hk'
    exact ⟨j, post, hput.grows e, hrest⟩

theorem Backed.erase (hb : Backed full db h) : Backed full (db.erasePost k) (h ++ [e]) := by
  intro k' item' hk'
  obtain ⟨j, post, hput, hrest⟩ := hb k' item' (db.posts.of_erase hk').2
  exact ⟨j, post, hput.grows e, hrest⟩

/-- An update keeps every attribute but the text, and brings none but the key back. -/
theorem updated_apply {db : Db} {title content : Json} {a : String} (ht : a ≠ "title")
    (hc : a ≠ "content") (hid : a ≠ "id") :
    db.updated k title content a = db.posts.item k a := by
  have ha : a ∉ (newText title content).map Prod.fst := by simp [newText, ht, hc]
  rw [Db.updated, applySets_of_notMem ha, db.posts.base_apply k hid]

theorem updated_complete {title content : Json} {item : Attrs Json}
    (hk : db.posts.get k = some item) (hfull : ∀ a ∈ postAttributes, item a ≠ none) :
    ∀ a ∈ postAttributes, db.updated k title content a ≠ none := by
  intro a ha
  by_cases ht : a = "title"
  · subst ht
    simp [Db.updated, newText]
  · by_cases hc : a = "content"
    · subst hc
      simp [Db.updated, newText]
    · by_cases hid : a = "id"
      · subst hid
        rw [db.updated_key]
        exact Option.some_ne_none k
      · rw [updated_apply ht hc hid, Table.item, hk]
        exact hfull a ha

/-- An update of an id that was put, whether or not the item is still there. -/
theorem Backed.update (hb : Backed full db h) {title content : Json}
    (hput : ∃ i post, PutBy i post h ∧ Attrs.of post "id" = some k)
    (hfull : full → db.posts.get k ≠ none) :
    Backed full (db.putPost k (db.updated k title content) (db.updated_key ..)) (h ++ [e]) := by
  intro k' item' hk'
  rcases db.posts.of_put (h := db.updated_key ..) hk' with ⟨rfl, rfl⟩ | ⟨_, hk'⟩
  · have huser : db.updated k' title content "userId" = db.posts.item k' "userId" :=
      updated_apply (by decide) (by decide) (by decide)
    rw [huser]
    cases hget : db.posts.get k' with
    | none =>
        -- the item was deleted in between: the update plants one that has no owner
        obtain ⟨i, post, hp, hid⟩ := hput
        exact ⟨i, post, hp.grows e, hid, Or.inl (by rw [Table.item, hget]; rfl),
          fun hf => absurd hget (hfull hf)⟩
    | some item =>
        obtain ⟨i, post, hp, hid, howner, hall⟩ := hb k' item hget
        refine ⟨i, post, hp.grows e, hid, ?_, fun hf => updated_complete hget (hall hf)⟩
        rw [Table.item, hget]
        exact howner
  · obtain ⟨j, post, hp, hrest⟩ := hb k' item' hk'
    exact ⟨j, post, hp.grows e, hrest⟩

end Backed

/-! ## 4. The specification of the handlers -/

/-- An UpdateItem on Posts finds the item it updates. -/
def UpdatesPresent : Guard ι Command Answer Db := fun _ _ op db =>
  ∀ u, op = .update u → u.tableName = "Posts" → db.posts.get u.key.2 ≠ none

/-- An updatePost whose claims carry no `sub` reads no item without `userId`. -/
def ReadsOwned (reqs : ι → Request) : Guard ι Command Answer Db := fun _ i op db =>
  ∀ ev k item, reqs i = .updatePost ev → subOf ev = none → op = .get ⟨"Posts", ("id", k)⟩ →
    db.posts.get k = some item → item "userId" ≠ none

/-- The id `k` was put with the owner `sub`; unless `strict`, no `sub` is as good. -/
def Authorised (strict : Prop) (sub : Option Json) (k : Json) (h : List (Sent ι)) : Prop :=
  ∃ i post, PutBy i post h ∧ Attrs.of post "id" = some k ∧
    (Attrs.of post "userId" = sub ∨ sub = none ∧ ¬ strict)

theorem Authorised.grows {strict : Prop} {sub : Option Json} {k : Json} {h : List (Sent ι)}
    (e : Sent ι) (ha : Authorised strict sub k h) : Authorised strict sub k (h ++ [e]) := by
  obtain ⟨i, post, hput, hrest⟩ := ha
  exact ⟨i, post, hput.grows e, hrest⟩

/-- What a command of a request guarantees: a put is the first of its id; any other write of an
    item is authorised. -/
def Guaranteed (strict : Prop) (sub : Option Json) (h : List (Sent ι)) : Command → Prop
  | .put c => ∀ j post, PutBy j post h → Attrs.of post "id" ≠ Attrs.of c.item "id"
  | c => ∀ k, c.writes = some k → Authorised strict sub k h

/-- **The specification**: the counter stands at the numbers given out and every item is backed. -/
def posts (strict full : Prop) (reqs : ι → Request) : Spec ι Command Answer Db where
  inv db h := (∃ n, CounterAt db n ∧ Ledger reqs n h) ∧ Backed full db h
  guar i _ h c _ _ := Guaranteed strict (subOf (reqs i).event) h c

section Keeps

variable {strict full : Prop} {reqs : ι → Request} {C : Guard ι Command Answer Db} {i : ι}
  {K : Db → List (Sent ι) → Prop}

/-- A GetCommand leaves the tables alone; an answer without error is what it read. -/
theorem effect_get {db db' : Db} {k : Json} {r : Except Error Output}
    (h : effect (.get ⟨"Posts", ("id", k)⟩) db r db') :
    db' = db ∧ ∀ out, r = .ok out → out.item = db.posts.get k := by
  have hx := exec_get db k
  rcases h.answer with ⟨rfl, rfl⟩ | ⟨hs, e, rfl⟩
  · rw [hx]
    exact ⟨rfl, fun out ho => by cases ho; rfl⟩
  · rw [hx, or_self] at hs
    exact ⟨hs, fun out ho => by cases ho⟩

/-- Reading the item of `k` first: nothing changes, and what comes next knows what was read. -/
theorem keeps_get {k : Json} {next : Except Error Output → Handler}
    (herr : ∀ e, Final (next (.error e)))
    (hok : ∀ db h out, (posts strict full reqs).inv db h → K db h →
      C h i (.get ⟨"Posts", ("id", k)⟩) db → out.item = db.posts.get k →
      ∃ K' : List (Sent ι) → Prop, (∀ h e, K' h → K' (h ++ [e])) ∧ K' h ∧
        Keeps effect C (posts strict full reqs) i (fun _ h => K' h) (next (.ok out))) :
    Keeps effect C (posts strict full reqs) i K (.call (.get ⟨"Posts", ("id", k)⟩) next) := by
  intro db h r db' hinv hk hc he
  obtain ⟨rfl, hout⟩ := effect_get he
  obtain ⟨⟨n, hn, hl⟩, hb⟩ := hinv
  have hl' : Ledger reqs n (h ++ [⟨i, .get ⟨"Posts", ("id", k)⟩, r⟩]) :=
    hl.quiet le_rfl (fun _ _ he => by cases he) fun _ he => by cases he
  refine ⟨fun _ hw => (nomatch hw), ⟨⟨n, hn, hl'⟩, hb.same rfl⟩, ?_⟩
  cases r with
  | error e => exact ⟨fun _ _ => True, stable_grows fun _ _ h => h, trivial, keeps_final (herr e)⟩
  | ok out =>
      obtain ⟨K', hgrow, hk', hkeeps⟩ := hok db' h out ⟨⟨n, hn, hl⟩, hb⟩ hk hc (hout out rfl)
      exact ⟨fun _ h => K' h, stable_grows hgrow, hgrow h _ hk', hkeeps⟩

/-- An item that was read is one that was put, with the same owner or none. -/
theorem authorised_of_read {db : Db} {h : List (Sent ι)} {k : Json} {item : Attrs Json}
    {sub : Option Json} (hb : Backed full db h) (hk : db.posts.get k = some item)
    (hown : item "userId" = sub) (hs : strict → sub ≠ none) : Authorised strict sub k h := by
  obtain ⟨i, post, hput, hid, howner, _⟩ := hb k item hk
  refine ⟨i, post, hput, hid, ?_⟩
  rcases howner with hnone | hsome
  · have hsub : sub = none := hown ▸ hnone
    exact Or.inr ⟨hsub, fun hst => hs hst hsub⟩
  · exact Or.inl (hsome.symm.trans hown)

/-- The state after a put of the item, or before it when the call was refused. -/
theorem effect_put {db db' : Db} {item : List (String × Json)} {k : Json}
    {r : Except Error Output} (hk : Attrs.of item "id" = some k)
    (h : effect (.put ⟨"Posts", item⟩) db r db') :
    db' = db ∨ db' = db.putPost k (Attrs.of item) hk := by
  have hs := h.state
  rwa [exec_put db hk] at hs

theorem effect_delete {db db' : Db} {k : Json} {r : Except Error Output}
    (h : effect (.delete ⟨"Posts", ("id", k)⟩) db r db') : db' = db ∨ db' = db.erasePost k := by
  have hs := h.state
  rwa [exec_delete db k] at hs

theorem effect_update {db db' : Db} {id : String} {title content : Json} {r : Except Error Output}
    (h : effect (.update (updateCommand id [(":t", title), (":c", content)])) db r db') :
    db' = db ∨ db' = db.putPost (.str id) (db.updated (.str id) title content)
      (db.updated_key ..) := by
  have hs := h.state
  rwa [exec_update db id title content] at hs

/-- The counter's update: either it is answered the number the counter stood at, or no number. -/
theorem effect_counter {db db' : Db} {n : Nat} {r : Except Error Output} (hn : CounterAt db n)
    (h : effect (.update counterUpdate) db r db') :
    db' = db.counted n ∧ r = .ok { attributes := some (Attrs.of (nextValue n)) } ∨
      (db' = db ∨ db' = db.counted n) ∧ ∃ e, r = .error e := by
  have ha := h.answer
  rwa [exec_counter hn, and_comm] at ha

/-! ## 5. The handlers keep it -/

/-- The UpdateCommand of an authorised request. -/
theorem keeps_update {id : String} {title content : Json}
    {next : Except Error Output → Handler} (hnext : ∀ r, Final (next r))
    (hfull : full → ∀ h i c db, C h i c db → UpdatesPresent h i c db)
    (hk : ∀ db h, K db h → Authorised strict (subOf (reqs i).event) (.str id) h) :
    Keeps effect C (posts strict full reqs) i K
      (.call (.update (updateCommand id [(":t", title), (":c", content)])) next) := by
  refine keeps_last hnext fun db h r db' hinv hK hc he => ?_
  obtain ⟨⟨n, hn, hl⟩, hb⟩ := hinv
  have hauth := hk db h hK
  have hl' : Ledger reqs n (h ++ [⟨i, .update (updateCommand id [(":t", title), (":c", content)]),
      r⟩]) := by
    refine hl.quiet le_rfl (fun j m he => ?_) fun _ he => by cases he
    have htable : "Posts" = "Counter" := congrArg (fun e : Sent ι => e.op.tableName) he
    exact absurd htable (by decide)
  refine ⟨fun k hw => ?_, ?_⟩
  · simp only [Command.writes, updateCommand, if_pos, Option.some.injEq] at hw
    exact hw ▸ hauth
  · rcases effect_update he with rfl | rfl
    · exact ⟨⟨n, hn, hl'⟩, hb.same rfl⟩
    · obtain ⟨j, post, hput, hid, _⟩ := hauth
      exact ⟨⟨n, hn, hl'⟩, hb.update ⟨j, post, hput, hid⟩ fun hf => hfull hf h i _ db hc _ rfl rfl⟩

/-- The DeleteCommand of an authorised request. -/
theorem keeps_delete {id : String} {next : Except Error Output → Handler}
    (hnext : ∀ r, Final (next r))
    (hk : ∀ db h, K db h → Authorised strict (subOf (reqs i).event) (.str id) h) :
    Keeps effect C (posts strict full reqs) i K
      (.call (.delete ⟨"Posts", ("id", .str id)⟩) next) := by
  refine keeps_last hnext fun db h r db' hinv hK hc he => ?_
  obtain ⟨⟨n, hn, hl⟩, hb⟩ := hinv
  have hl' : Ledger reqs n (h ++ [⟨i, .delete ⟨"Posts", ("id", .str id)⟩, r⟩]) :=
    hl.quiet le_rfl (fun _ _ he => by cases he) fun _ he => by cases he
  refine ⟨fun k hw => ?_, ?_⟩
  · simp only [Command.writes, if_pos, Option.some.injEq] at hw
    exact hw ▸ hk db h hK
  · rcases effect_delete he with rfl | rfl
    · exact ⟨⟨n, hn, hl'⟩, hb.same rfl⟩
    · exact ⟨⟨n, hn, hl'⟩, hb.erase⟩

/-- The PutCommand of a createPost that was given its number and has not put yet. -/
theorem keeps_put {now : String} {ev : Event} {m : Nat} {item : List (String × Json)}
    {next : Except Error Output → Handler} (hnext : ∀ r, Final (next r))
    (hreq : reqs i = .createPost now ev) (hpost : IsPost ev (toString (m + 1)) item)
    (hk : ∀ db h, K db h → Issued i m h ∧ ∀ e ∈ h, e.who = i → ¬ ∃ c, e.op = .put c) :
    Keeps effect C (posts strict full reqs) i K (.call (.put ⟨"Posts", item⟩) next) := by
  refine keeps_last hnext fun db h r db' hinv hK hc he => ?_
  obtain ⟨⟨n, hn, hl⟩, hb⟩ := hinv
  obtain ⟨hm, hnot⟩ := hk db h hK
  have hnoput : ∀ item', ¬ PutBy i item' h := fun item' ⟨r', hr'⟩ => hnot _ hr' rfl ⟨_, rfl⟩
  have hl' : Ledger reqs n (h ++ [⟨i, .put ⟨"Posts", item⟩, r⟩]) := hl.put hreq hm hpost hnoput
  have hput : PutBy i item (h ++ [⟨i, .put ⟨"Posts", item⟩, r⟩]) :=
    putBy_append.mpr (Or.inr ⟨rfl, rfl⟩)
  refine ⟨fun j post hp hid => ?_, ?_⟩
  · -- an earlier put of this id would be a put of this request
    obtain ⟨rfl, rfl⟩ := hl'.put_unique (hp.grows _) hput hid
    exact hnoput _ hp
  · rcases effect_put (isPost_id hpost) he with rfl | rfl
    · exact ⟨⟨n, hn, hl'⟩, hb.same rfl⟩
    · exact ⟨⟨n, hn, hl'⟩, hb.put hpost (isPost_id hpost) hput⟩

theorem keeps_createPost {now : String} {ev : Event} (hreq : reqs i = .createPost now ev) :
    Keeps effect C (posts strict full reqs) i (fun _ h => ∀ e ∈ h, e.who ≠ i)
      (createPost now ev) := by
  rcases createPost_calls now ev with hfin | ⟨next, hcall, herr, hok⟩
  · exact keeps_final hfin
  · rw [hcall]
    intro db h r db' hinv hK hc he
    obtain ⟨⟨n, hn, hl⟩, hb⟩ := hinv
    refine ⟨fun k hw => by simp [Command.writes, counterUpdate] at hw, ?_⟩
    rcases effect_counter hn he with ⟨rfl, rfl⟩ | ⟨hdb, e, rfl⟩
    · -- the number was given out
      obtain ⟨item, next', hnext, hpost, hfin⟩ := hok { attributes := some (Attrs.of (nextValue n)) }
      refine ⟨⟨⟨n + 1, counterAt_counted db n, hl.count⟩, hb.same rfl⟩,
        fun _ h => Issued i n h ∧ ∀ e ∈ h, e.who = i → ¬ ∃ c, e.op = .put c,
        (stable_grows fun _ e hi => hi.grows e).and stable_notYet, ⟨?_, ?_⟩, ?_⟩
      · exact issued_append.mpr (Or.inr rfl)
      · intro e he hw
        rcases List.mem_append.mp he with he | he
        · exact absurd hw (hK e he)
        · rw [List.mem_singleton] at he
          subst he
          intro h'
          obtain ⟨c, hc⟩ := h'
          cases hc
      · rw [hnext]
        exact keeps_put hfin hreq hpost fun _ _ hk => hk
    · -- no number: the handler ends
      have hquiet : ∀ n', n ≤ n' →
          Ledger reqs n' (h ++ [⟨i, .update counterUpdate, .error e⟩]) := fun n' hle =>
        hl.quiet hle (fun _ _ he => by cases he) fun _ he => by cases he
      refine ⟨?_, fun _ _ => True, stable_grows fun _ _ h => h, trivial, keeps_final (herr e)⟩
      rcases hdb with rfl | rfl
      · exact ⟨⟨n, hn, hquiet n le_rfl⟩, hb.same rfl⟩
      · exact ⟨⟨n + 1, counterAt_counted db n, hquiet _ (Nat.le_succ n)⟩, hb.same rfl⟩

theorem keeps_updatePost {ev : Event} (hreq : reqs i = .updatePost ev)
    (hstrict : strict → ∀ h i c db, C h i c db → ReadsOwned reqs h i c db)
    (hfull : full → ∀ h i c db, C h i c db → UpdatesPresent h i c db) :
    Keeps effect C (posts strict full reqs) i K (updatePost ev) := by
  have hsub : subOf (reqs i).event = subOf ev := by rw [hreq]; rfl
  rcases updatePost_calls ev with hfin | ⟨id, title, content, next, hcall, herr, hok⟩
  · exact keeps_final hfin
  · rw [hcall]
    refine keeps_get herr fun db h out hinv _ hc hread => ?_
    rcases hok out with hfin | ⟨item, next', hitem, hown, hnext, hfin⟩
    · exact ⟨fun _ => True, fun _ _ h => h, trivial, keeps_final hfin⟩
    · have hget : db.posts.get (.str id) = some item := by rw [← hread, hitem]
      have hs : strict → subOf ev ≠ none := fun hst hnone =>
        hstrict hst h i _ db hc ev (.str id) item hreq hnone rfl hget (hown.trans hnone)
      refine ⟨fun h => Authorised strict (subOf (reqs i).event) (.str id) h,
        fun _ e ha => ha.grows e, ?_, ?_⟩
      · rw [hsub]
        exact authorised_of_read hinv.2 hget hown hs
      · rw [hnext]
        exact keeps_update hfin hfull fun _ _ hk => hk

theorem keeps_deletePost {ev : Event} (hreq : reqs i = .deletePost ev) :
    Keeps effect C (posts strict full reqs) i K (deletePost ev) := by
  have hsub : subOf (reqs i).event = subOf ev := by rw [hreq]; rfl
  rcases deletePost_calls ev with hfin | ⟨id, sub, next, hcall, hsome, herr, hok⟩
  · exact keeps_final hfin
  · rw [hcall]
    refine keeps_get herr fun db h out hinv _ _ hread => ?_
    rcases hok out with hfin | ⟨item, next', hitem, hown, hnext, hfin⟩
    · exact ⟨fun _ => True, fun _ _ h => h, trivial, keeps_final hfin⟩
    · have hget : db.posts.get (.str id) = some item := by rw [← hread, hitem]
      refine ⟨fun h => Authorised strict (subOf (reqs i).event) (.str id) h,
        fun _ e ha => ha.grows e, ?_, ?_⟩
      · rw [hsub]
        exact authorised_of_read hinv.2 hget hown fun _ => hsome ▸ Option.some_ne_none sub
      · rw [hnext]
        exact keeps_delete hfin fun _ _ hk => hk

theorem keeps_getPost {ev : Event} : Keeps effect C (posts strict full reqs) i K (getPost ev) := by
  rcases getPost_calls ev with hfin | ⟨id, next, hcall, hfin⟩
  · exact keeps_final hfin
  · rw [hcall]
    exact keeps_get (fun e => hfin _) fun _ _ out _ _ _ _ =>
      ⟨fun _ => True, fun _ _ h => h, trivial, keeps_final (hfin _)⟩

/-- **Every handler keeps the specification**, under the conditions the flags ask for. -/
theorem keeps_handler
    (hstrict : strict → ∀ h i c db, C h i c db → ReadsOwned reqs h i c db)
    (hfull : full → ∀ h i c db, C h i c db → UpdatesPresent h i c db) (i : ι) :
    Keeps effect C (posts strict full reqs) i (fun _ h => ∀ e ∈ h, e.who ≠ i)
      (reqs i).handler := by
  cases hreq : reqs i with
  | createPost now ev => exact keeps_createPost hreq
  | getPost ev => exact keeps_getPost
  | updatePost ev => exact keeps_updatePost hreq hstrict hfull
  | deletePost ev => exact keeps_deletePost hreq

end Keeps

/-! ## 6. Runs -/

section Runs

variable [DecidableEq ι] {strict full : Prop} {reqs : ι → Request}
  {C : Guard ι Command Answer Db} {c c' : State ι} {e : Sent ι}

omit [DecidableEq ι] in
theorem known_start
    (hstrict : strict → ∀ h i c db, C h i c db → ReadsOwned reqs h i c db)
    (hfull : full → ∀ h i c db, C h i c db → UpdatesPresent h i c db) :
    Known effect C (posts strict full reqs) (start reqs) :=
  known_init ⟨⟨0, counterAt_empty, ledger_nil⟩, fun _ _ hk => by cases hk⟩
    (keeps_handler hstrict hfull)

/-- **Every run keeps the specification.** -/
theorem posts_run (strict full : Prop)
    (hstrict : strict → ∀ h i c db, C h i c db → ReadsOwned reqs h i c db)
    (hfull : full → ∀ h i c db, C h i c db → UpdatesPresent h i c db)
    (h : Run effect C (start reqs) c) : (posts strict full reqs).inv c.store c.hist :=
  (run_keeps (known_start hstrict hfull) h).1

/-- **Every step of a run does what its request guarantees.** -/
theorem posts_step (strict full : Prop)
    (hstrict : strict → ∀ h i c db, C h i c db → ReadsOwned reqs h i c db)
    (hfull : full → ∀ h i c db, C h i c db → UpdatesPresent h i c db)
    (h : Run effect C (start reqs) c) (hs : Step effect C c e c') :
    Guaranteed strict (subOf (reqs e.who).event) c.hist e.op :=
  step_guar (known_start hstrict hfull) h hs

/-- A step changes an item of Posts only by a command that writes it. -/
theorem step_frame (hs : Step effect C c e c') {k : Json} (hk : e.op.writes ≠ some k) :
    c'.store.posts.get k = c.store.posts.get k := by
  rcases hs.effect.state with h | h
  · rw [h]
  · rw [h, posts_frame e.op c.store hk]

end Runs

end Lambda
