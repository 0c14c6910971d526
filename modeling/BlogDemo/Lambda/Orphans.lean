/-
  File:      BlogDemo/Lambda/Orphans.lean
  Subject:   WHERE A STORED POST COMES FROM, AND POSTS WITHOUT AN OWNER: what an update leaves that comes
             after the deletion it was checked before.

  The authorizer of serverless.yaml gives every updatePost claims with a `sub`. Such a request never
  matches a post that has none.

  * `Next`, `step_next` -- what the next command of a request is, and what it has read before it;
  * **`post_origin`** -- the title and content of a post are those of one write, and the rest is what
    createPost wrote, or nothing;
  * **`orphan_frozen`** -- a post without owner is changed only by requests that had read it before it
    lost its owner; once these are over it stays as it is, for its author too.
-/
import BlogDemo.Lambda.Safety

namespace Lambda

open Js Atomic Dynamo Attrs
open Prog (Final final_ret Trace)

/-! ## 1. The next command -/

/-- **What the next command of a request is**, after the calls it has made. -/
inductive Next (req : Request) (made : List (Made Command Answer)) : Command → Prop where
  | count : Next req made (.update counterUpdate)
  | put (id : String) (item : List (String × Json)) (hpost : IsPost req.event id item) :
      Next req made (.put ⟨"Posts", item⟩)
  | get (id : String) : Next req made (.get ⟨"Posts", ("id", .str id)⟩)
  | update (ev : Event) (id : String) (title content : Json) (out : Output) (item : Attrs Json)
      (hreq : req = .updatePost ev)
      (hread : ⟨.get ⟨"Posts", ("id", .str id)⟩, .ok out⟩ ∈ made) (hitem : out.item = some item)
      (hown : item "userId" = subOf req.event) :
      Next req made (.update (updateCommand id [(":t", title), (":c", content)]))
  | delete (id : String) (sub : Json) (out : Output) (item : Attrs Json)
      (hread : ⟨.get ⟨"Posts", ("id", .str id)⟩, .ok out⟩ ∈ made) (hitem : out.item = some item)
      (hown : item "userId" = subOf req.event) (hsub : subOf req.event = some sub) :
      Next req made (.delete ⟨"Posts", ("id", .str id)⟩)

section Next

variable {op op' : Command} {next : Answer op → Handler} {next' : Answer op' → Handler}
  {p : Handler} {made : List (Made Command Answer)}

/-- A program at a call has not come to its end. -/
theorem not_final_of_trace (hp : p.Final) (h : p.Trace made (.call op next)) : False := by
  obtain ⟨a, rfl⟩ := hp
  cases h

/-- A program that is at a call is at its first one, or has made that. -/
theorem trace_call (h : Trace (.call op' next') made (.call op next)) :
    made = [] ∧ op = op' ∨ ∃ r made', made = ⟨op', r⟩ :: made' ∧
      (next' r).Trace made' (.call op next) := by
  cases h with
  | start => exact Or.inl ⟨rfl, rfl⟩
  | call r h => exact Or.inr ⟨r, _, rfl, h⟩

/-- The last call of a program is the only one it can be at. -/
theorem trace_last (hfin : ∀ r, Final (next' r))
    (h : Trace (.call op' next') made (.call op next)) : op = op' := by
  rcases trace_call h with ⟨_, rfl⟩ | ⟨r, _, _, h⟩
  · rfl
  · exact (not_final_of_trace (hfin r) h).elim

/-- **Every handler**, at any of its commands. -/
theorem trace_next {req : Request} (h : req.handler.Trace made (.call op next)) :
    Next req made op := by
  cases req with
  | createPost now ev =>
      rcases createPost_calls now ev with hfin | ⟨next₁, hcall, herr, hok⟩
      · exact (not_final_of_trace hfin h).elim
      · rw [show Request.handler (.createPost now ev) = _ from hcall] at h
        rcases trace_call h with ⟨_, rfl⟩ | ⟨r, made', _, h⟩
        · exact .count
        · cases r with
          | error e => exact (not_final_of_trace (herr e) h).elim
          | ok out =>
              obtain ⟨item, next₂, hput, hpost, hfin⟩ := hok out
              rw [hput] at h
              obtain rfl := trace_last hfin h
              exact .put _ item hpost
  | getPost ev =>
      rcases getPost_calls ev with hfin | ⟨id, next₁, hcall, hfin⟩
      · exact (not_final_of_trace hfin h).elim
      · rw [show Request.handler (.getPost ev) = _ from hcall] at h
        obtain rfl := trace_last hfin h
        exact .get id
  | updatePost ev =>
      rcases updatePost_calls ev with hfin | ⟨id, title, content, next₁, hcall, herr, hok⟩
      · exact (not_final_of_trace hfin h).elim
      · rw [show Request.handler (.updatePost ev) = _ from hcall] at h
        rcases trace_call h with ⟨_, rfl⟩ | ⟨r, made', rfl, hrest⟩
        · exact .get id
        · cases r with
          | error e => exact (not_final_of_trace (herr e) hrest).elim
          | ok out =>
              rcases hok out with hfin | ⟨item, next₂, hitem, hown, hupdate, hfin⟩
              · exact (not_final_of_trace hfin hrest).elim
              · rw [hupdate] at hrest
                obtain rfl := trace_last hfin hrest
                exact .update ev id title content out item rfl List.mem_cons_self hitem hown
  | deletePost ev =>
      rcases deletePost_calls ev with hfin | ⟨id, sub, next₁, hcall, hsub, herr, hok⟩
      · exact (not_final_of_trace hfin h).elim
      · rw [show Request.handler (.deletePost ev) = _ from hcall] at h
        rcases trace_call h with ⟨_, rfl⟩ | ⟨r, made', rfl, hrest⟩
        · exact .get id
        · cases r with
          | error e => exact (not_final_of_trace (herr e) hrest).elim
          | ok out =>
              rcases hok out with hfin | ⟨item, next₂, hitem, hown, hdelete, hfin⟩
              · exact (not_final_of_trace hfin hrest).elim
              · rw [hdelete] at hrest
                obtain rfl := trace_last hfin hrest
                exact .delete id sub out item List.mem_cons_self hitem hown hsub

end Next

section Runs

variable {ι : Type} [DecidableEq ι] {reqs : ι → Request} {c c' c'' : State ι} {e : Sent ι} {k : Json}

/-- **One step of a run**, by the command that is sent. -/
theorem step_next (h : Run effect free (start reqs) c) (hs : Step effect free c e c') :
    Next (reqs e.who) (callsOf e.who c.hist) e.op := by
  cases hs with
  | call i op next r s' hp hc he =>
      have htrace : ((reqs i).handler).Trace (callsOf i c.hist) (c.pool i) := run_trace h i
      rw [hp] at htrace
      exact trace_next htrace

/-! ## 2. Where a post comes from -/

/-- What a command writes for the title and the content. -/
def Command.text : Command → Option Json × Option Json
  | .put c => (Attrs.of c.item "title", Attrs.of c.item "content")
  | .update c =>
    (c.expressionAttributeValues.lookup ":t", c.expressionAttributeValues.lookup ":c")
  | _ => (none, none)

/-- What createPost alone writes. -/
def authorAttributes : List String := ["userId", "userName", "createdAt"]

/-- **The origin of the item under `k`**: its text is that of one write, and the other attributes are
    all those of the put of `k`, or are all gone. -/
structure Origin (h : List (Sent ι)) (k : Json) (item : Attrs Json) : Prop where
  id : item "id" = some k
  text : ∃ e ∈ h, e.op.writes = some k ∧ e.op.text = (item "title", item "content")
  author : ∃ i post, PutBy i post h ∧ Attrs.of post "id" = some k ∧
    ((∀ a ∈ authorAttributes, item a = Attrs.of post a) ∨ ∀ a ∈ authorAttributes, item a = none)
  only : ∀ a ∉ postAttributes, item a = none

omit [DecidableEq ι] in
theorem Origin.grows {h : List (Sent ι)} {item : Attrs Json} (ho : Origin h k item) (e : Sent ι) :
    Origin (h ++ [e]) k item := by
  obtain ⟨w, hw, htext⟩ := ho.text
  obtain ⟨i, post, hput, hrest⟩ := ho.author
  exact ⟨ho.id, ⟨w, List.mem_append_left _ hw, htext⟩, ⟨i, post, hput.grows e, hrest⟩, ho.only⟩

omit [DecidableEq ι] in
/-- A put writes all of it. -/
theorem Origin.put {h : List (Sent ι)} {ev : Event} {id : String} {item : List (String × Json)}
    {e : Sent ι} (hpost : IsPost ev id item) (hop : e.op = .put ⟨"Posts", item⟩) :
    Origin (h ++ [e]) (.str id) (Attrs.of item) := by
  have hid := isPost_id hpost
  have hmem : e ∈ h ++ [e] := List.mem_append_right _ List.mem_cons_self
  refine ⟨hid, ⟨e, hmem, ?_, by rw [hop]; rfl⟩,
    ⟨e.who, item, putBy_append.mpr (Or.inr ⟨rfl, hop⟩), hid, Or.inl fun _ _ => rfl⟩, fun a ha => ?_⟩
  · rw [hop]
    exact hid
  · obtain ⟨title, content, sub, userName, now, _, rfl⟩ := hpost
    simp only [postAttributes, List.mem_cons, List.not_mem_nil, or_false, not_or] at ha
    obtain ⟨h1, h2, h3, h4, h5, h6⟩ := ha
    simp [Attrs.of, h1, h2, h3, h4, h5, h6]

omit [DecidableEq ι] in
/-- An update writes the text; the rest is what is there, if anything is. -/
theorem Origin.update {h : List (Sent ι)} {db : Db} {id : String} {title content : Json} {e : Sent ι}
    (hold : ∀ item, db.posts.get (.str id) = some item → Origin h (.str id) item)
    (hput : ∃ i post, PutBy i post h ∧ Attrs.of post "id" = some (.str id))
    (hop : e.op = .update (updateCommand id [(":t", title), (":c", content)])) :
    Origin (h ++ [e]) (.str id) (db.updated (.str id) title content) := by
  have hmem : e ∈ h ++ [e] := List.mem_append_right _ List.mem_cons_self
  have hkeep : ∀ a, a ≠ "title" → a ≠ "content" → a ≠ "id" →
      db.updated (.str id) title content a = db.posts.item (.str id) a :=
    fun a ht hc hid => updated_apply ht hc hid
  have hauthor : ∀ a ∈ authorAttributes,
      db.updated (.str id) title content a = db.posts.item (.str id) a := by
    intro a ha
    simp only [authorAttributes, List.mem_cons, List.not_mem_nil, or_false] at ha
    rcases ha with rfl | rfl | rfl <;> exact hkeep _ (by decide) (by decide) (by decide)
  refine ⟨db.updated_key .., ⟨e, hmem, by rw [hop]; rfl, ?_⟩, ?_, fun a ha => ?_⟩
  · rw [hop]
    simp [Command.text, updateCommand, Db.updated, newText, List.lookup]
  · cases hget : db.posts.get (.str id) with
    | none =>
        obtain ⟨i, post, hp, hid⟩ := hput
        refine ⟨i, post, hp.grows e, hid, Or.inr fun a ha => ?_⟩
        rw [hauthor a ha, Table.item, hget]
        rfl
    | some item =>
        obtain ⟨i, post, hp, hid, hall⟩ := (hold item hget).author
        refine ⟨i, post, hp.grows e, hid, hall.imp (fun h a ha => ?_) fun h a ha => ?_⟩
        all_goals
          rw [hauthor a ha, Table.item, hget]
          exact h a ha
  · have hne : a ≠ "title" ∧ a ≠ "content" ∧ a ≠ "id" := by
      refine ⟨?_, ?_, ?_⟩
      all_goals
        intro heq
        exact ha (by rw [heq]; decide)
    rw [hkeep a hne.1 hne.2.1 hne.2.2, Table.item]
    cases hget : db.posts.get (.str id) with
    | none => rfl
    | some item => exact (hold item hget).only a ha

/-- **The origin of every post**: in every run, whatever fails and however the requests are
    interleaved, the title and the content of a post are those of one write of it, and the other
    attributes are all those that createPost has put, or are all gone. -/
theorem post_origin (h : Run effect free (start reqs) c) {item : Attrs Json}
    (hk : c.store.posts.get k = some item) : Origin c.hist k item := by
  induction h generalizing k item with
  | start => cases hk
  | @step c c' e h hs ih =>
      have hsame : c'.store.posts.get k = c.store.posts.get k → Origin c'.hist k item := by
        intro hget
        rw [hs.hist]
        exact (ih (hget ▸ hk)).grows e
      by_cases hw : e.op.writes = some k
      · rw [hs.hist]
        have heffect := hs.effect
        have hguar := free_step h hs
        have hnext := step_next h hs
        obtain ⟨i, op, r⟩ := e
        cases hnext with
        | count => cases hw
        | get id => cases hw
        | put id post hpost =>
            obtain rfl : Json.str id = k := Option.some.inj ((isPost_id hpost).symm.trans hw)
            rcases effect_put (isPost_id hpost) heffect with hstate | hstate
            · exact (ih (by rwa [hstate] at hk)).grows _
            · rw [hstate] at hk
              obtain rfl : Attrs.of post = item := Option.some.inj (by simpa [Db.putPost] using hk)
              exact .put hpost rfl
        | update ev id title content out read hreq hread hitem hown =>
            obtain rfl : Json.str id = k := Option.some.inj hw
            rcases effect_update heffect with hstate | hstate
            · exact (ih (by rwa [hstate] at hk)).grows _
            · rw [hstate] at hk
              obtain rfl : c.store.updated (.str id) title content = item :=
                Option.some.inj (by simpa [Db.putPost] using hk)
              obtain ⟨j, post, hput, hid, _⟩ := hguar _ hw
              exact .update (fun _ => ih) ⟨j, post, hput, hid⟩ rfl
        | delete id sub out read hread hitem hown hsub =>
            obtain rfl : Json.str id = k := Option.some.inj hw
            rcases effect_delete heffect with hstate | hstate
            · exact (ih (by rwa [hstate] at hk)).grows _
            · rw [hstate] at hk
              simp [Db.erasePost] at hk
      · exact hsame (step_frame hs hw)

end Runs

/-- The post of the race, after the update that came too late. -/
theorem post_origin_race : ∃ item,
    (raceAt [0, 0, 1, 2, 2, 1]).store.posts.get (.str "1") = some item ∧
    item "userId" = none ∧ Origin (raceAt [0, 0, 1, 2, 2, 1]).hist (.str "1") item :=
  ⟨_, rfl, by decide, post_origin (raceAt_run [0, 0, 1, 2, 2, 1]) rfl⟩

/-! ## 3. Posts without an owner -/

section Orphans

variable {ι : Type} {reqs : ι → Request} {c c' c'' : State ι} {e : Sent ι} {k : Json}

/-- The request `i` was answered this item for the id `k`. -/
def Read (i : ι) (k : Json) (item : Attrs Json) (h : List (Sent ι)) : Prop :=
  ∃ out, ⟨i, .get ⟨"Posts", ("id", k)⟩, .ok out⟩ ∈ h ∧ out.item = some item

/-- **What the authorizer gives**: every updatePost has a `sub`. -/
def Authenticated (reqs : ι → Request) : Prop :=
  ∀ i ev, reqs i = .updatePost ev → subOf ev ≠ none

/-- **The post has no owner**: neither has what is under `k`, nor what a request reads there from now on. -/
structure Orphaned (k : Json) (before : List (Sent ι)) (c : State ι) : Prop where
  item : ∀ item, c.store.posts.get k = some item → item "userId" = none
  reads : ∀ i item, Read i k item c.hist → Read i k item before ∨ item "userId" = none

/-- An item was put under `k`. -/
def WasPut (k : Json) (h : List (Sent ι)) : Prop :=
  ∃ i post, PutBy i post h ∧ Attrs.of post "id" = some k

variable [DecidableEq ι]

theorem WasPut.later (hput : WasPut k c.hist) (hr : Run effect free c c') : WasPut k c'.hist := by
  obtain ⟨i, post, ⟨r, hp⟩, hid⟩ := hput
  exact ⟨i, post, ⟨r, hr.hist_sub _ hp⟩, hid⟩

/-- A post that is there was put, and is never put again. -/
theorem not_put_again (h : Run effect free (start reqs) c) (hs : Step effect free c e c')
    (hput : WasPut k c.hist)
    {item : List (String × Json)} (hop : e.op = .put ⟨"Posts", item⟩) :
    Attrs.of item "id" ≠ some k := by
  obtain ⟨i, post, hp, hid⟩ := hput
  have hguar := free_step h hs
  rw [hop] at hguar
  exact fun heq => hguar i post hp (hid.trans heq.symm)

/-- **One step leaves the post without an owner.** -/
theorem step_orphaned {before : List (Sent ι)} (h : Run effect free (start reqs) c)
    (hs : Step effect free c e c')
    (hput : WasPut k c.hist)
    (ho : Orphaned k before c) : Orphaned k before c' := by
  have hnext := step_next h hs
  have heffect := hs.effect
  have hagain : ∀ {item}, e.op = .put ⟨"Posts", item⟩ → Attrs.of item "id" ≠ some k :=
    fun hop => not_put_again h hs hput hop
  constructor
  · intro item hk
    by_cases hw : e.op.writes = some k
    · obtain ⟨i, op, r⟩ := e
      cases hnext with
      | count => cases hw
      | get id => cases hw
      | put id post hpost => exact absurd hw (hagain rfl)
      | update ev id title content out read hreq hread hitem hown =>
          obtain rfl : Json.str id = k := Option.some.inj hw
          rcases effect_update heffect with hstate | hstate
          · exact ho.item item (by rwa [hstate] at hk)
          · rw [hstate] at hk
            obtain rfl : c.store.updated (.str id) title content = item :=
              Option.some.inj (by simpa [Db.putPost] using hk)
            rw [updated_apply (by decide) (by decide) (by decide), Table.item]
            cases hget : c.store.posts.get (.str id) with
            | none => rfl
            | some item => exact ho.item item hget
      | delete id sub out read hread hitem hown hsub =>
          obtain rfl : Json.str id = k := Option.some.inj hw
          rcases effect_delete heffect with hstate | hstate
          · exact ho.item item (by rwa [hstate] at hk)
          · rw [hstate] at hk
            simp [Db.erasePost] at hk
    · exact ho.item item ((step_frame hs hw) ▸ hk)
  · intro i item hread
    obtain ⟨out, hmem, hitem⟩ := hread
    rw [hs.hist] at hmem
    rcases List.mem_append.mp hmem with hmem | hmem
    · exact ho.reads i item ⟨out, hmem, hitem⟩
    · rw [List.mem_singleton] at hmem
      subst hmem
      exact Or.inr (ho.item item (((effect_get heffect).2 out rfl).symm.trans hitem))

/-- **Every run leaves the post without an owner.** -/
theorem run_orphaned {before : List (Sent ι)} (h : Run effect free (start reqs) c)
    (hr : Run effect free c c')
    (hput : WasPut k c.hist)
    (ho : Orphaned k before c) : Orphaned k before c' := by
  induction hr with
  | start => exact ho
  | step hr hs ih =>
      exact step_orphaned (h.trans hr) hs
        (hput.imp fun _ => Exists.imp fun _ ⟨⟨r, hp⟩, hid⟩ => ⟨⟨r, hr.hist_sub _ hp⟩, hid⟩) ih

/-- What a request has read is in the history. -/
theorem read_of_made {i : ι} {h : List (Sent ι)} {out : Output} {item : Attrs Json}
    (hread : ⟨.get ⟨"Posts", ("id", k)⟩, .ok out⟩ ∈ callsOf i h) (hitem : out.item = some item) :
    Read i k item h := by
  obtain ⟨⟨j, op, r⟩, hmem, rfl, heq⟩ := exists_of_mem_callsOf hread
  cases heq
  exact ⟨out, hmem, hitem⟩

/-- **Who changes a post without owner** had read it while it had one, its own. -/
theorem orphan_changed (hjwt : Authenticated reqs) (h : Run effect free (start reqs) c)
    {before : List (Sent ι)} (hput : WasPut k c.hist)
    (ho : Orphaned k before c) (hs : Step effect free c e c')
    (hne : c'.store.posts.get k ≠ c.store.posts.get k) :
    ∃ item sub, Read e.who k item before ∧ subOf (reqs e.who).event = some sub ∧
      item "userId" = some sub := by
  have hw : e.op.writes = some k := by
    by_contra hw
    exact hne (step_frame hs hw)
  have hagain : ∀ {item}, e.op = .put ⟨"Posts", item⟩ → Attrs.of item "id" ≠ some k :=
    fun hop => not_put_again h hs hput hop
  have hbefore : ∀ {item sub}, Read e.who k item c.hist → item "userId" = some sub →
      Read e.who k item before := fun hread howner =>
    (ho.reads _ _ hread).resolve_right fun hnone => Option.some_ne_none _ (howner.symm.trans hnone)
  have hnext := step_next h hs
  obtain ⟨i, op, r⟩ := e
  generalize hreq : reqs i = req at hnext
  cases hnext with
  | count => cases hw
  | get id => cases hw
  | put id post hpost => exact absurd hw (hagain rfl)
  | update ev id title content out item hupdate hread hitem hown =>
      obtain rfl : Json.str id = k := Option.some.inj hw
      subst hreq
      have hsome : subOf (reqs i).event ≠ none := by
        rw [hupdate]
        exact hjwt i ev hupdate
      obtain ⟨sub, hsub⟩ := Option.ne_none_iff_exists'.mp hsome
      have howner := hown.trans hsub
      exact ⟨item, sub, hbefore (read_of_made hread hitem) howner, hsub, howner⟩
  | delete id sub out item hread hitem hown hsub =>
      obtain rfl : Json.str id = k := Option.some.inj hw
      subst hreq
      have howner := hown.trans hsub
      exact ⟨item, sub, hbefore (read_of_made hread hitem) howner, hsub, howner⟩

/-- A request that is over makes no step. -/
theorem final_run {i : ι} (hr : Run effect free c c') (hf : (c.pool i).Final) :
    (c'.pool i).Final := by
  induction hr with
  | start => exact hf
  | @step c₁ c₂ e hr hs ih =>
      obtain ⟨next, hp, _⟩ := hs.program
      have hne : i ≠ e.who := by
        rintro rfl
        obtain ⟨a, ha⟩ := ih
        rw [ha] at hp
        cases hp
      rwa [hs.others hne]

/-- **A post that has lost its owner is frozen**: behind the authorizer, in every run, whatever is
    changed of it is changed by a request that had read it before, as its own; and when these are over,
    nobody changes or deletes it any more. -/
theorem orphan_frozen (hjwt : Authenticated reqs) (h : Run effect free (start reqs) c)
    {item : Attrs Json} (hk : c.store.posts.get k = some item) (hown : item "userId" = none)
    (hr : Run effect free c c') :
    (∀ e c'', Step effect free c' e c'' → c''.store.posts.get k ≠ c'.store.posts.get k →
      ∃ read sub, Read e.who k read c.hist ∧ subOf (reqs e.who).event = some sub ∧
        read "userId" = some sub) ∧
    ((∀ i read, Read i k read c.hist → (c.pool i).Final) → c'.store.posts.get k = some item) := by
  have hput : WasPut k c.hist := present_issued h hk
  have ho : Orphaned k c.hist c := by
    refine ⟨fun item' hk' => ?_, fun _ _ hread => Or.inl hread⟩
    obtain rfl := Option.some.inj (hk.symm.trans hk')
    exact hown
  have hlater : ∀ {c₁}, Run effect free c c₁ → Orphaned k c.hist c₁ ∧ WasPut k c₁.hist := fun hr =>
    ⟨run_orphaned h hr hput ho, hput.later hr⟩
  refine ⟨fun e c'' hs hne => ?_, fun hover => ?_⟩
  · obtain ⟨ho', hput'⟩ := hlater hr
    exact orphan_changed hjwt (h.trans hr) hput' ho' hs hne
  · induction hr with
    | start => exact hk
    | @step c₁ c₂ e hr hs ih =>
        by_contra hne
        have hchanged : c₂.store.posts.get k ≠ c₁.store.posts.get k := fun heq => hne (heq.trans ih)
        obtain ⟨ho₁, hput₁⟩ := hlater hr
        obtain ⟨read, _, hread, _⟩ := orphan_changed hjwt (h.trans hr) hput₁ ho₁ hs hchanged
        obtain ⟨a, ha⟩ := final_run hr (hover e.who read hread)
        cases hs with
        | call i op next r s' hp hc he =>
            rw [ha] at hp
            cases hp

end Orphans

/-- The race, and the author who tries to delete the post again. -/
def retry : Fin 4 → Request
  | 3 => .deletePost ⟨some "1", none, some authorClaims⟩
  | i => race i

theorem retry_run (order : List (Fin 4)) :
    Run effect free (start retry) ((start retry).sched Db.exec order) := sched_run effect_done _ _

/-- After the race the author's deletion is refused: the post stays. -/
theorem orphan_frozen_retry : ∃ item,
    ((start retry).sched Db.exec [0, 0, 1, 2, 2, 1]).store.posts.get (.str "1") = some item ∧
    ((start retry).sched Db.exec ([0, 0, 1, 2, 2, 1] ++ [3, 3])).store.posts.get (.str "1") =
      some item := by
  have hjwt : Authenticated retry := by
    intro i ev hreq
    fin_cases i
    · cases hreq
    · cases hreq
      exact Option.some_ne_none _
    · cases hreq
    · cases hreq
  refine ⟨_, rfl, (orphan_frozen hjwt (retry_run [0, 0, 1, 2, 2, 1]) rfl (by decide)
    (sched_rest effect_done _ _ [3, 3])).2 ?_⟩
  intro i read hread
  obtain ⟨out, hmem, _⟩ := hread
  have hwho : ∀ e ∈ ((start retry).sched Db.exec [0, 0, 1, 2, 2, 1]).hist, e.who ≠ 3 := by decide
  fin_cases i
  · exact ⟨_, rfl⟩
  · exact ⟨_, rfl⟩
  · exact ⟨_, rfl⟩
  · exact absurd rfl (hwho _ hmem)

end Lambda
