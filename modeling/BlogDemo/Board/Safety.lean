/-
  File:      BlogDemo/Board/Safety.lean
  Subject:   WHAT HOLDS IN EVERY RUN of the board's requests, interleaved in any order, and what the
             body of a request can break: the service builds and updates a post from all of it.

  * `ServerFields`, **`serverFields_of_chosen`** -- author, `_id` and date of a post are the server's
    choice and stay, as long as no body names them;
  * `AuthorWrites`, **`authorWrites_of_kept`** -- a post is written by its author, as long as neither
    an update nor a new post under the old `_id` gives it to another, and its `authorId` is an id and
    nothing else that prints as one;
  * `takeover` -- a run in which a body does both.
-/
import BlogDemo.Board.Requests
import BlogDemo.Lib.Interleave

namespace Board

open Js Atomic Attrs Mongoose
open Prog (Final final_ret)

/-! ## 1. The machine -/

/-- An operation has its effect and its answer, or fails before it or after it. -/
def effect (M : Package) : Effect Op Answer Collection :=
  Faulty (execute M) fun _ r => ∃ e, r = .error e

variable {ι : Type}

abbrev State (ι : Type) := Config ι Op Answer Reply Collection

/-- One operation of a run: the request, the operation and its answer. -/
abbrev Sent (ι : Type) := Call ι Op Answer

def start (M : Package) (s : Collection) (reqs : ι → Request) : State ι :=
  Config.init s fun i => (reqs i).handler M

section Effects

variable {M : Package} {s s' : Collection}

/-- Reading changes nothing, and a post that is answered is the one that is there. -/
theorem effect_findById {k : ObjectId} {r : Answer (.findById k)}
    (h : effect M (.findById k) s r s') : s' = s ∧ ∀ post, r = .ok (some post) → s.get k = some post := by
  rcases h.answer with ⟨rfl, rfl⟩ | ⟨hs, e, rfl⟩
  · exact ⟨rfl, fun post hp => Except.ok.inj hp⟩
  · exact ⟨hs.elim id id, fun post hp => by cases hp⟩

theorem effect_find {r : Answer .find} (h : effect M .find s r s') : s' = s := h.state.elim id id

theorem effect_insertOne {oid : ObjectId} {doc : Doc} {r : Answer (.insertOne oid doc)}
    (h : effect M (.insertOne oid doc) s r s') : s' = s ∨ s.get (insertId oid doc) = none ∧
      s' = s.put (insertId oid doc) (withId oid doc) (withId_id oid doc) := by
  rcases h.state with rfl | rfl
  · exact Or.inl rfl
  · exact insertOne_cases s oid doc

theorem effect_update {k : ObjectId} {u : Update} {r : Answer (.findByIdAndUpdate k u)}
    (h : effect M (.findByIdAndUpdate k u) s r s') : s' = s ∨ ∃ doc doc' hd, s.get k = some doc ∧
      M.apply u doc = .ok doc' ∧ s' = s.put k doc' hd := by
  rcases h.state with rfl | rfl
  · exact Or.inl rfl
  · exact updateOne_cases s M k u

theorem effect_delete {k : ObjectId} {r : Answer (.findByIdAndDelete k)}
    (h : effect M (.findByIdAndDelete k) s r s') : s' = s ∨ s' = s.erase k := h.state

end Effects

/-- **What a specification asks of each operation** in a run of the requests `reqs`: what a request
    knows when it makes it, and that the step does what is guaranteed and keeps the invariant. -/
structure StepRules (M : Package) (C : Guard ι Op Answer Collection)
    (S : Spec ι Op Answer Collection) (reqs : ι → Request) : Prop where
  find : ∀ i s h (r : Answer .find), S.inv s h →
    S.guar i s h .find r s ∧ S.inv s (h ++ [⟨i, .find, r⟩])
  findById : ∀ i k s h (r : Answer (.findById k)), S.inv s h →
    (∀ post, r = .ok (some post) → s.get k = some post) →
      S.guar i s h (.findById k) r s ∧ S.inv s (h ++ [⟨i, .findById k, r⟩])
  insertOne : ∀ i dto u post s h r s', (reqs i).route = .create dto → (reqs i).userId = some u →
    PostSchema.construct M (reqs i).oid (assign dto "authorId" u) = .ok post →
    PostSchema.validate post = .ok () → S.inv s h →
    C h i (.insertOne (reqs i).oid (M.toObject (stamp (reqs i).now post))) s →
    effect M (.insertOne (reqs i).oid (M.toObject (stamp (reqs i).now post))) s r s' →
      S.guar i s h (.insertOne (reqs i).oid (M.toObject (stamp (reqs i).now post))) r s' ∧
        S.inv s' (h ++ [⟨i, .insertOne (reqs i).oid (M.toObject (stamp (reqs i).now post)), r⟩])
  update : ∀ i id dto k text post u s h r s', (reqs i).route = .update id dto →
    (reqs i).userId = some (.str text) → authorIdToString M post = .ok text →
    (⟨i, .findById k, .ok (some post)⟩ : Sent ι) ∈ h →
    PostSchema.updateOf M (reqs i).now dto = .ok u → S.inv s h →
    C h i (.findByIdAndUpdate k u) s → effect M (.findByIdAndUpdate k u) s r s' →
      S.guar i s h (.findByIdAndUpdate k u) r s' ∧
        S.inv s' (h ++ [⟨i, .findByIdAndUpdate k u, r⟩])
  delete : ∀ i id k text post s h r s', (reqs i).route = .delete id →
    (reqs i).userId = some (.str text) → authorIdToString M post = .ok text →
    (⟨i, .findById k, .ok (some post)⟩ : Sent ι) ∈ h → S.inv s h →
    C h i (.findByIdAndDelete k) s → effect M (.findByIdAndDelete k) s r s' →
      S.guar i s h (.findByIdAndDelete k) r s' ∧
        S.inv s' (h ++ [⟨i, .findByIdAndDelete k, r⟩])

section Requests

variable {M : Package} {C : Guard ι Op Answer Collection} {S : Spec ι Op Answer Collection}
  {reqs : ι → Request} {i : ι} {K : Collection → List (Sent ι) → Prop}

/-- A request that reads a post first: what follows knows the answer. -/
theorem StepRules.keeps_findById (hS : StepRules M C S reqs) {k : ObjectId}
    {next : Answer (.findById k) → Handler} (herr : ∀ e, Final (next (.error e)))
    (hnone : Final (next (.ok none)))
    (hsome : ∀ post, Keeps (effect M) C S i
      (fun _ h => (⟨i, .findById k, .ok (some post)⟩ : Sent ι) ∈ h) (next (.ok (some post)))) :
    Keeps (effect M) C S i K (.call (.findById k) next) := by
  intro s h r s' hinv _ _ he
  obtain ⟨rfl, hpost⟩ := effect_findById he
  obtain ⟨hg, hinv'⟩ := hS.findById i k s' h r hinv hpost
  refine ⟨hg, hinv', ?_⟩
  obtain e | _ | post := r
  · exact ⟨fun _ _ => True, stable_grows fun _ _ h => h, trivial, keeps_final (herr e)⟩
  · exact ⟨fun _ _ => True, stable_grows fun _ _ h => h, trivial, keeps_final hnone⟩
  · exact ⟨fun _ h => (⟨i, .findById k, .ok (some post)⟩ : Sent ι) ∈ h,
      stable_grows fun _ _ hm => List.mem_append_left _ hm,
      List.mem_append_right _ (List.mem_singleton.mpr rfl), hsome post⟩

theorem StepRules.keeps_read (hS : StepRules M C S reqs)
    (hr : (reqs i).route = .healthCheck ∨ (reqs i).route = .findAll ∨
      ∃ id, (reqs i).route = .findOne id) :
    Keeps (effect M) C S i K ((reqs i).handler M) := by
  rcases read_calls (M := M) (reqs i) hr with hfin | ⟨op, next, hop, hcall, hfin⟩
  · exact keeps_final hfin
  · rw [hcall]
    refine keeps_last hfin fun s h r s' hinv _ _ he => ?_
    rcases hop with rfl | ⟨k, rfl⟩
    · obtain rfl := effect_find he
      exact hS.find i s' h r hinv
    · obtain ⟨rfl, hpost⟩ := effect_findById he
      exact hS.findById i k s' h r hinv hpost

/-- **Every request keeps a specification whose operations follow the rules.** -/
theorem StepRules.keeps_request (hS : StepRules M C S reqs) (i : ι)
    {K : Collection → List (Sent ι) → Prop} : Keeps (effect M) C S i K ((reqs i).handler M) := by
  cases hr : (reqs i).route with
  | healthCheck => exact hS.keeps_read (Or.inl hr)
  | findAll => exact hS.keeps_read (Or.inr (Or.inl hr))
  | findOne id => exact hS.keeps_read (Or.inr (Or.inr ⟨id, hr⟩))
  | create dto =>
      rcases create_calls (M := M) (reqs i) hr with
        hfin | ⟨u, post, next, hu, hpost, hv, hcall, hfin⟩
      · exact keeps_final hfin
      · rw [hcall]
        exact keeps_last hfin fun s h r s' hinv _ hc he =>
          hS.insertOne i dto u post s h r s' hr hu hpost hv hinv hc he
  | update id dto =>
      rcases update_calls (M := M) (reqs i) hr with
        hfin | ⟨u, k, next, hu, hcall, herr, hnone, hsome⟩
      · exact keeps_final hfin
      · rw [hcall]
        refine hS.keeps_findById herr hnone fun post => ?_
        rcases hsome post with hfin | ⟨text, update, next', hauthor, hown, hup, hnext, hfin⟩
        · exact keeps_final hfin
        · rw [hnext]
          exact keeps_last hfin fun s h r s' hinv hread hc he =>
            hS.update i id dto k text post update s h r s' hr (hown ▸ hu) hauthor hread hup hinv hc he
  | delete id =>
      rcases delete_calls (M := M) (reqs i) hr with
        hfin | ⟨u, k, next, hu, hcall, herr, hnone, hsome⟩
      · exact keeps_final hfin
      · rw [hcall]
        refine hS.keeps_findById herr hnone fun post => ?_
        rcases hsome post with hfin | ⟨text, next', hauthor, hown, hnext, hfin⟩
        · exact keeps_final hfin
        · rw [hnext]
          exact keeps_last hfin fun s h r s' hinv hread hc he =>
            hS.delete i id k text post s h r s' hr (hown ▸ hu) hauthor hread hinv hc he

end Requests

/-! ## 2. The fields the server controls -/

section ServerFields

variable {M : Package} {reqs : ι → Request} {C : Guard ι Op Answer Collection}

/-- The paths of a post that are the server's to choose. -/
def serverPaths : List String := ["authorId", "_id", "createdAt"]

/-- The document is that of a POST: its session's user, and the server's `_id` and time. -/
def CreatedBy (reqs : ι → Request) (h : List (Sent ι)) (doc : Doc) : Prop :=
  ∃ i dto u, (reqs i).route = .create dto ∧ (reqs i).userId = some u ∧
    (∃ oid post r, (⟨i, .insertOne oid post, r⟩ : Sent ι) ∈ h) ∧
    doc "authorId" = some (.ofJson u) ∧ doc "_id" = some (.objectId (reqs i).oid) ∧
    doc "createdAt" = some (.date (reqs i).now)

/-- In every run whose steps all meet `C`, each stored post has the author, `_id` and date its
    creation gave it, and they never change. -/
def ServerFields (M : Package) (C : Guard ι Op Answer Collection) [DecidableEq ι]
    (reqs : ι → Request) : Prop :=
  (∀ c, Run (effect M) C (start M Keyed.empty reqs) c → ∀ k doc, c.store.get k = some doc →
    CreatedBy reqs c.hist doc) ∧
  ∀ c e c', Run (effect M) C (start M Keyed.empty reqs) c → Step (effect M) C c e c' →
    ∀ k doc doc', c.store.get k = some doc → c'.store.get k = some doc' →
      ∀ a ∈ serverPaths, doc' a = doc a

/-- A POST that inserts has neither an `_id` nor a date in its body, and a user that is saved as it
    is, which all but arrays and objects are; a PUT of a post leaves its author and its date as they
    are. -/
def Chosen (M : Package) (reqs : ι → Request) : Guard ι Op Answer Collection := fun _ i op s =>
  (∀ dto oid doc, (reqs i).route = .create dto → op = .insertOne oid doc →
    (∀ v, ("_id", v) ∈ dto → v = .null) ∧
      (∀ v, ("createdAt", v) ∈ dto → M.cast .date v = some .null) ∧
      ∀ u, (reqs i).userId = some u → M.saved (.ofJson u) = some (.ofJson u)) ∧
  ∀ id dto k u doc, (reqs i).route = .update id dto → op = .findByIdAndUpdate k u →
    s.get k = some doc → Leaves M "authorId" (reqs i).now dto doc ∧
      Leaves M "createdAt" (reqs i).now dto doc

/-- **The specification**: every post is that of its POST, and no step changes what it chose. -/
def owned (reqs : ι → Request) : Spec ι Op Answer Collection where
  inv s h := ∀ k doc, s.get k = some doc → CreatedBy reqs h doc
  guar _ s _ _ _ s' := ∀ k doc doc', s.get k = some doc → s'.get k = some doc' →
    ∀ a ∈ serverPaths, doc' a = doc a

theorem CreatedBy.grows {h : List (Sent ι)} {doc : Doc} (e : Sent ι) (hc : CreatedBy reqs h doc) :
    CreatedBy reqs (h ++ [e]) doc := by
  obtain ⟨i, dto, u, hr, hu, ⟨oid, post, r, hm⟩, hrest⟩ := hc
  exact ⟨i, dto, u, hr, hu, ⟨oid, post, r, List.mem_append_left _ hm⟩, hrest⟩

theorem CreatedBy.congr {h : List (Sent ι)} {doc doc' : Doc} (hc : CreatedBy reqs h doc)
    (hd : ∀ a ∈ serverPaths, doc' a = doc a) : CreatedBy reqs h doc' := by
  obtain ⟨i, dto, u, hr, hu, hm, hauthor, hid, hdate⟩ := hc
  exact ⟨i, dto, u, hr, hu, hm, (hd _ (by simp [serverPaths])).trans hauthor,
    (hd _ (by simp [serverPaths])).trans hid, (hd _ (by simp [serverPaths])).trans hdate⟩

/-- A step that changes nothing keeps the specification. -/
theorem owned_same {s : Collection} {h : List (Sent ι)} {e : Sent ι}
    (hinv : (owned reqs).inv s h) :
    (owned reqs).guar e.who s h e.op e.res s ∧ (owned reqs).inv s (h ++ [e]) :=
  ⟨fun _ _ _ hd hd' a _ => by rw [Option.some.inj (hd.symm.trans hd')],
    fun k doc hd => (hinv k doc hd).grows e⟩

theorem owned_rules : StepRules M (Chosen M reqs) (owned reqs) reqs where
  find i s h r hinv := owned_same (e := ⟨i, .find, r⟩) hinv
  findById i k s h r hinv _ := owned_same (e := ⟨i, .findById k, r⟩) hinv
  insertOne i dto u post s h r s' hr hu hpost hv hinv hc he := by
    rcases effect_insertOne he with rfl | ⟨hnone, rfl⟩
    · exact owned_same (e := ⟨i, _, r⟩) hinv
    · obtain ⟨hid, hdate, hsaved⟩ := hc.1 dto _ _ hr rfl
      refine ⟨fun k doc doc' hd hd' a ha => ?_, fun k doc hd => ?_⟩
      · rcases s.of_put hd' with ⟨rfl, rfl⟩ | ⟨_, hd'⟩
        · -- nothing was under the new `_id`
          rw [hnone] at hd
          cases hd
        · rw [Option.some.inj (hd.symm.trans hd')]
      · rcases s.of_put hd with ⟨rfl, rfl⟩ | ⟨_, hd⟩
        · refine ⟨i, dto, u, hr, hu, ⟨_, _, r, List.mem_append_right _ (List.mem_singleton.mpr rfl)⟩,
            ?_, ?_, ?_⟩
          · rw [withId_of_ne _ _ (by decide)]
            exact (created_author hpost hv).trans (hsaved u hu)
          · rw [withId_id, created_id hpost hid]
          · rw [withId_of_ne _ _ (by decide)]
            exact created_date hpost hdate
        · exact (hinv k doc hd).grows _
  update i id dto k text post u s h r s' hr _ _ _ hup hinv hc he := by
    rcases effect_update he with rfl | ⟨doc, doc', hkey, hdoc, happly, rfl⟩
    · exact owned_same (e := ⟨i, _, r⟩) hinv
    · obtain ⟨hauthor, hdate⟩ := hc.2 id dto k u doc hr rfl hdoc
      have hkept : ∀ a ∈ serverPaths, doc' a = doc a := by
        simp only [serverPaths, List.mem_cons, List.not_mem_nil, or_false]
        rintro a (rfl | rfl | rfl)
        · exact apply_leaves hauthor (by decide) hup happly
        · rw [hkey, s.keyed k doc hdoc]
        · exact apply_leaves hdate (by decide) hup happly
      refine ⟨fun k' d d' hd hd' a ha => ?_, fun k' d hd => ?_⟩
      · rcases s.of_put hd' with ⟨rfl, rfl⟩ | ⟨_, hd'⟩
        · rw [hkept a ha, Option.some.inj (hdoc.symm.trans hd)]
        · rw [Option.some.inj (hd.symm.trans hd')]
      · rcases s.of_put hd with ⟨rfl, rfl⟩ | ⟨_, hd⟩
        · exact ((hinv k' doc hdoc).grows _).congr hkept
        · exact (hinv k' d hd).grows _
  delete i id k text post s h r s' _ _ _ _ hinv _ he := by
    rcases effect_delete he with rfl | rfl
    · exact owned_same (e := ⟨i, _, r⟩) hinv
    · refine ⟨fun k' d d' hd hd' a _ => ?_, fun k' d hd => ?_⟩
      · rw [Option.some.inj (hd.symm.trans (s.of_erase hd').2)]
      · exact (hinv k' d (s.of_erase hd).2).grows _

/-- **Author, `_id` and date are the server's choice and stay**, in every run in which no body that
    takes effect names them. -/
theorem serverFields_of_chosen [DecidableEq ι] (M : Package) (reqs : ι → Request) :
    ServerFields M (Chosen M reqs) reqs := by
  have h0 : Known (effect M) (Chosen M reqs) (owned reqs) (start M Keyed.empty reqs) :=
    known_init (fun _ _ hd => by cases hd) fun i => owned_rules.keeps_request i
  exact ⟨fun c h => (run_keeps h0 h).1, fun c e c' h hs => step_guar h0 h hs⟩

end ServerFields

/-! ## 3. Who writes a post -/

section AuthorWrites

variable {M : Package} {reqs : ι → Request}

/-- In every run whose steps all meet `C`, an update or a deletion that takes effect on a stored
    post is the request of the user who is its author at that moment. -/
def AuthorWrites (M : Package) (C : Guard ι Op Answer Collection) [DecidableEq ι] (s₀ : Collection)
    (reqs : ι → Request) : Prop :=
  ∀ c e c' k doc, Run (effect M) C (start M s₀ reqs) c → Step (effect M) C c e c' →
    (e.op = .findByIdAndDelete k ∨ ∃ u, e.op = .findByIdAndUpdate k u) →
    c.store.get k = some doc → c'.store = (execute M e.op c.store).2 →
      ∃ u, authorOf doc = some u ∧ (reqs e.who).userId = some u

/-- A PUT of a post leaves its author as it is, a POST under an `_id` that an earlier findById
    answered a post for has the author of that post, and a post that is written belongs to a user
    whose id is a text. -/
def Kept (M : Package) (reqs : ι → Request) : Guard ι Op Answer Collection := fun h i op s =>
  (∀ oid doc, op = .insertOne oid doc → s.get (insertId oid doc) = none →
    ∀ j post, (⟨j, .findById (insertId oid doc), .ok (some post)⟩ : Sent ι) ∈ h →
      authorIdToString M post = authorIdToString M doc) ∧
  (∀ id dto k u doc, (reqs i).route = .update id dto → op = .findByIdAndUpdate k u →
    s.get k = some doc → Leaves M "authorId" (reqs i).now dto doc) ∧
  ∀ k doc, (op = .findByIdAndDelete k ∨ ∃ u, op = .findByIdAndUpdate k u) → s.get k = some doc →
    ∃ t, authorOf doc = some (.str t)

/-- **The specification**: what a findById has answered still has the author of the post that is
    there, as its `authorId` prints, and a write of a post is its author's. -/
def authored (M : Package) (reqs : ι → Request) : Spec ι Op Answer Collection where
  inv s h := ∀ k doc, s.get k = some doc → ∀ j post,
    (⟨j, .findById k, .ok (some post)⟩ : Sent ι) ∈ h →
      authorIdToString M post = authorIdToString M doc
  guar i s _ op _ _ := ∀ k doc, (op = .findByIdAndDelete k ∨ ∃ u, op = .findByIdAndUpdate k u) →
    s.get k = some doc → ∃ u, authorOf doc = some u ∧ (reqs i).userId = some u

/-- An operation that is no findById adds no answer of one. -/
theorem answered_append {h : List (Sent ι)} {e : Sent ι} {j : ι} {k : ObjectId} {post : Doc}
    (he : ∀ k, e.op ≠ .findById k)
    (hm : (⟨j, .findById k, .ok (some post)⟩ : Sent ι) ∈ h ++ [e]) :
    (⟨j, .findById k, .ok (some post)⟩ : Sent ι) ∈ h := by
  rcases List.mem_append.mp hm with hm | hm
  · exact hm
  · rw [List.mem_singleton] at hm
    exact absurd (congrArg Call.op hm).symm (he k)

/-- The author of the post that is there is the one that was read before. -/
theorem authored_by {i : ι} {k : ObjectId} {text : String} {post doc : Doc} {s : Collection}
    {h : List (Sent ι)} (hinv : (authored M reqs).inv s h)
    (hread : (⟨i, .findById k, .ok (some post)⟩ : Sent ι) ∈ h)
    (hauthor : authorIdToString M post = .ok text) (hu : (reqs i).userId = some (.str text))
    (hd : s.get k = some doc) (hid : ∃ t, authorOf doc = some (.str t)) :
    ∃ u, authorOf doc = some u ∧ (reqs i).userId = some u := by
  obtain ⟨t, ht⟩ := hid
  have hprints : authorIdToString M doc = .ok text := (hinv k doc hd i post hread).symm.trans hauthor
  rw [authorIdToString_author ht] at hprints
  exact ⟨.str t, ht, Except.ok.inj hprints ▸ hu⟩

theorem authored_rules : StepRules M (Kept M reqs) (authored M reqs) reqs where
  find i s h r hinv := by
    refine ⟨fun k doc hop => ?_, fun k doc hd j post hm => ?_⟩
    · rcases hop with hop | ⟨u, hop⟩ <;> cases hop
    · exact hinv k doc hd j post (answered_append (fun _ hop => by cases hop) hm)
  findById i k s h r hinv hr := by
    refine ⟨fun k doc hop => ?_, fun k' doc hd j post hm => ?_⟩
    · rcases hop with hop | ⟨u, hop⟩ <;> cases hop
    · rcases List.mem_append.mp hm with hm | hm
      · exact hinv k' doc hd j post hm
      · -- the new answer is the post that is there
        rw [List.mem_singleton] at hm
        cases hm
        rw [Option.some.inj ((hr post rfl).symm.trans hd)]
  insertOne i dto u post s h r s' hr hu hpost hv hinv hc he := by
    refine ⟨fun k doc hop => ?_, fun k doc hd j old hm => ?_⟩
    · rcases hop with hop | ⟨u, hop⟩ <;> cases hop
    · replace hm := answered_append (fun _ hop => by cases hop) hm
      rcases effect_insertOne he with rfl | ⟨hnone, rfl⟩
      · exact hinv k doc hd j old hm
      · rcases s.of_put hd with ⟨rfl, rfl⟩ | ⟨_, hd⟩
        · rw [authorIdToString_congr (withId_of_ne _ _ (by decide))]
          exact hc.1 _ _ rfl hnone j old hm
        · exact hinv k doc hd j old hm
  update i id dto k text post u s h r s' hr hu hauthor hread hup hinv hc he := by
    refine ⟨fun k' doc hop hd => ?_, fun k' doc hd j old hm => ?_⟩
    · rcases hop with hop | ⟨u, hop⟩
      · cases hop
      · cases hop
        exact authored_by hinv hread hauthor hu hd (hc.2.2 k doc (Or.inr ⟨_, rfl⟩) hd)
    · replace hm := answered_append (fun _ hop => by cases hop) hm
      rcases effect_update he with rfl | ⟨before, after, hkey, hdoc, happly, rfl⟩
      · exact hinv k' doc hd j old hm
      · rcases s.of_put hd with ⟨rfl, rfl⟩ | ⟨_, hd⟩
        · have hkept := apply_leaves (hc.2.1 id dto k' u before hr rfl hdoc) (by decide) hup happly
          rw [authorIdToString_congr hkept]
          exact hinv k' before hdoc j old hm
        · exact hinv k' doc hd j old hm
  delete i id k text post s h r s' hr hu hauthor hread hinv hc he := by
    refine ⟨fun k' doc hop hd => ?_, fun k' doc hd j old hm => ?_⟩
    · rcases hop with hop | ⟨u, hop⟩
      · cases hop
        exact authored_by hinv hread hauthor hu hd (hc.2.2 k doc (Or.inl rfl) hd)
      · cases hop
    · replace hm := answered_append (fun _ hop => by cases hop) hm
      rcases effect_delete he with rfl | rfl
      · exact hinv k' doc hd j old hm
      · exact hinv k' doc (s.of_erase hd).2 j old hm

/-- **A post is written by its author**, in every run from any collection in which no PUT and no
    POST under the `_id` of an earlier post gives a post to another user, and the posts that are
    written belong to texts. -/
theorem authorWrites_of_kept [DecidableEq ι] (M : Package) (s₀ : Collection) (reqs : ι → Request) :
    AuthorWrites M (Kept M reqs) s₀ reqs := by
  intro c e c' k doc h hs hop hd _
  have h0 : Known (effect M) (Kept M reqs) (authored M reqs) (start M s₀ reqs) :=
    known_init (fun _ _ _ _ _ hm => absurd hm List.not_mem_nil)
      fun i => authored_rules.keeps_request i
  exact step_guar h0 h hs k doc hop hd

end AuthorWrites

/-! ## 4. A post changes hands -/

/-- A package for bodies of strings: nothing else casts. -/
def strings : Package where
  objectId v := match v with
    | .str s => ObjectId.ofHex? s
    | _ => none
  objectId_str _ := rfl
  date _ := none
  number _ := none
  dateText _ := "Invalid Date"
  minimize v := some v
  nested _ _ := .error (.cast "$set")

def ann : Json := .str "aaaaaaaaaaaaaaaaaaaaaaaa"

def bob : Json := .str "bbbbbbbbbbbbbbbbbbbbbbbb"

def thePost : ObjectId where
  digits := List.replicate 24 'c'
  length := List.length_replicate
  hex := by decide

/-- A post, and two updates by its author: one of its title, one of its `authorId`. -/
def takeover : Fin 3 → Request
  | 0 => ⟨.create [("title", .str "a"), ("content", .str "b")], some ann, thePost, 0⟩
  | 1 => ⟨.update thePost.toString [("title", .str "c")], some ann, thePost, 1⟩
  | 2 => ⟨.update thePost.toString [("authorId", bob)], some ann, thePost, 2⟩

def takeoverAt (order : List (Fin 3)) : State (Fin 3) :=
  (start strings Keyed.empty takeover).sched (execute strings) order

theorem effect_done (M : Package) (op : Op) (s : Collection) :
    effect M op s (execute M op s).1 (execute M op s).2 := .done

/-- The second update gives the post to another user. -/
theorem takeover_not_serverFields : ¬ ServerFields strings free takeover := by
  intro h
  have hs : Step (effect strings) free (takeoverAt [0, 2]) _ (takeoverAt [0, 2, 2]) :=
    sched_step (effect_done strings) _ [0, 2] (i := 2) rfl
  have hsame := h.2 _ _ _ (sched_run (effect_done strings) _ [0, 2]) hs thePost _ _ rfl rfl
    "authorId" (by decide)
  revert hsame
  decide

/-- The first update was checked before that, and takes effect on a post that is no longer its
    user's. -/
theorem takeover_not_authorWrites : ¬ AuthorWrites strings free Keyed.empty takeover := by
  intro h
  have hs : Step (effect strings) free (takeoverAt [0, 1, 2, 2]) _ (takeoverAt [0, 1, 2, 2, 1]) :=
    sched_step (effect_done strings) _ [0, 1, 2, 2] (i := 1) rfl
  obtain ⟨doc, hdoc⟩ : ∃ doc, (takeoverAt [0, 1, 2, 2]).store.get thePost = some doc := ⟨_, rfl⟩
  obtain ⟨u, ho, hu⟩ := h _ _ _ thePost doc (sched_run (effect_done strings) _ [0, 1, 2, 2]) hs
    (Or.inr ⟨_, rfl⟩) hdoc rfl
  have hbob : ((takeoverAt [0, 1, 2, 2]).store.get thePost).bind authorOf = some bob := by decide
  rw [hdoc, Option.bind_some, ho, ← hu] at hbob
  exact absurd hbob (by decide)

end Board
