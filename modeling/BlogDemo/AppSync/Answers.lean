/-
  File:      BlogDemo/AppSync/Answers.lean
  Subject:   WHAT A GRAPHQL FIELD IS ANSWERED, AND WHAT BECAME OF ITS OPERATION: the five resolvers,
             their operations in any order, each done, refused, or done with its answer lost.

  * `Applied` -- an operation that has a result, or that changed the table;
  * `Reflects` -- the field is answered without an error if and only if its operation was applied,
    and a failure is reported as an error;
  * **`reflects_iff`** -- in every run, createPost and getPost keep this as long as their operation
    does not fail, updatePost and deletePost unless it fails after it took effect, and listPosts
    always.
-/
import BlogDemo.AppSync.Store

namespace AppSync

open Js Atomic Dynamo Attrs
open Prog (Final)

/-! ## 1. The five resolvers -/

/-- A field of the API. -/
inductive Field where
  | item (r : Request)
  | listPosts

inductive ApiOperation where
  | item (op : Operation)
  | scan (s : Scan)

abbrev ApiAnswer : ApiOperation → Type
  | .item op => Answer op
  | .scan _ => Except Error ScanResult

inductive FieldReply where
  | item (r : Reply)
  | list (r : ListReply)

def FieldReply.isError : FieldReply → Bool
  | .item (.errors _) => true
  | .list (.errors _) => true
  | _ => false

/-- A resolver from its request function to the answer of its field. -/
def Field.resolver (util : Util) : Field → Prog ApiOperation ApiAnswer FieldReply
  | .item r =>
    match r.operation util with
    | .error e => .ret (.item (.errors e))
    | .ok op => .call (.item op) fun a => .ret (.item (r.response a))
  | .listPosts => .call (.scan listPosts.request) fun a => .ret (.list (listPosts.response a))

/-- **What becomes of an operation**: those on one item as before; a Scan answers some of the items,
    or fails. -/
inductive apiEffect : Effect ApiOperation ApiAnswer Posts where
  | item {op : Operation} {t t' : Posts} {r : Answer op} (h : effect op t r t') :
      apiEffect (.item op) t r t'
  | page (s : Scan) (t : Posts) (result : ScanResult)
      (h : ∀ item ∈ result.items, ∃ k, t.get k = some item) : apiEffect (.scan s) t (.ok result) t
  | failed (s : Scan) (t : Posts) (e : Error) : apiEffect (.scan s) t (.error e) t

/-! ## 2. Answers and operations -/

/-- `ctx.error` -/
def ErrorOf : {op : ApiOperation} → ApiAnswer op → Prop
  | .item _, r => ∃ e, r = .error e
  | .scan _, r => ∃ e, r = .error e

/-- **The operation was applied**, or the read performed: it has a result, or it changed the table
    and its answer was lost. -/
def Applied {op : ApiOperation} (r : ApiAnswer op) (t t' : Posts) : Prop := ¬ ErrorOf r ∨ t' ≠ t

/-- **The answer reflects the store.** -/
structure Reflects (reply : FieldReply) {op : ApiOperation} (r : ApiAnswer op) (t t' : Posts) :
    Prop where
  answered : reply.isError = false ↔ Applied r t t'
  reported : ErrorOf r → reply.isError = true

/-- When the resolver of a field makes the right thing of its operation. -/
def Tells (f : Field) {op : ApiOperation} (r : ApiAnswer op) (t t' : Posts) : Prop :=
  match f with
  | .item (.createPost _ _ _) => ¬ ErrorOf r
  | .item (.getPost _) => ¬ ErrorOf r
  | .item (.updatePost _) => ErrorOf r → t' = t
  | .item (.deletePost _) => ErrorOf r → t' = t
  | .listPosts => True

section Responses

variable {op : Operation} {t t' : Posts}

theorem not_errorOf_ok (x : Option (Attrs Json)) : ¬ @ErrorOf (.item op) (.ok x) := by
  intro h'
  obtain ⟨e, h⟩ := h'
  cases h

/-- A result that is answered. -/
theorem reflects_ok {reply : FieldReply} (x : Option (Attrs Json)) (h : reply.isError = false) :
    @Reflects reply (.item op) (.ok x) t t' :=
  ⟨iff_of_true h (Or.inl (not_errorOf_ok x)), fun herror => absurd herror (not_errorOf_ok x)⟩

/-- `ctx.result` alone reports no failure. -/
theorem resultOnly_reflects (r : Answer op) :
    @Reflects (.item (resultOnly r)) (.item op) r t t' ↔ ¬ @ErrorOf (.item op) r := by
  cases r with
  | ok x => exact iff_of_true (reflects_ok x rfl) (not_errorOf_ok x)
  | error e =>
      have hfailed : @ErrorOf (.item op) (.error e) := ⟨e, rfl⟩
      refine iff_of_false (fun h => ?_) (not_not_intro hfailed)
      cases h.reported hfailed

theorem authorResponse_error (e : Error) :
    (FieldReply.item (authorResponse (.error e))).isError = true := by
  unfold authorResponse
  dsimp only
  split <;> rfl

/-- Every failure is raised; one that came after the effect is raised all the same. -/
theorem authorResponse_reflects (r : Answer op) :
    @Reflects (.item (authorResponse r)) (.item op) r t t' ↔
      (@ErrorOf (.item op) r → t' = t) := by
  cases r with
  | ok x => exact iff_of_true (reflects_ok x rfl) fun h => absurd h (not_errorOf_ok x)
  | error e =>
      have hfailed : @ErrorOf (.item op) (.error e) := ⟨e, rfl⟩
      have hreply := authorResponse_error e
      constructor
      · intro h _
        by_contra hne
        have hfalse := h.answered.mpr (Or.inr hne)
        rw [hreply] at hfalse
        cases hfalse
      · intro h
        refine ⟨iff_of_false ?_ ?_, fun _ => hreply⟩
        · rw [hreply]
          exact Bool.noConfusion
        · rintro (hok | hne)
          · exact hok hfailed
          · exact hne (h hfailed)

end Responses

theorem listPosts_reflects {s : Scan} {r : ApiAnswer (.scan s)} {t t' : Posts}
    (h : apiEffect (.scan s) t r t') : Reflects (.list (listPosts.response r)) r t t' := by
  cases h with
  | page s t result hitems =>
      have hok : ¬ @ErrorOf (.scan s) (.ok result) := by
        intro h'
        obtain ⟨e, he⟩ := h'
        cases he
      exact ⟨iff_of_true rfl (Or.inl hok), fun herror => absurd herror hok⟩
  | failed s t e =>
      refine ⟨iff_of_false (fun h => ?_) ?_, fun _ => rfl⟩
      · cases h
      · rintro (hok | hne)
        · exact hok ⟨e, rfl⟩
        · exact hne rfl

/-! ## 3. In every run -/

variable {ι : Type}

abbrev ApiState (ι : Type) := Config ι ApiOperation ApiAnswer FieldReply Posts

def apiStart (util : Util) (t₀ : Posts) (fields : ι → Field) : ApiState ι :=
  Config.init t₀ fun i => (fields i).resolver util

section Runs

variable [DecidableEq ι] {util : Util} {t₀ : Posts} {fields : ι → Field} {c c' : ApiState ι}

/-- A resolver has not begun, or it has answered. -/
def Pending (util : Util) (fields : ι → Field) (c : ApiState ι) : Prop :=
  ∀ i, c.pool i = (fields i).resolver util ∨
    (∃ reply, c.pool i = .ret reply) ∧ ¬ Final ((fields i).resolver util)

theorem resolver_cases (util : Util) (f : Field) :
    (∃ r e, f = .item r ∧ r.operation util = .error e ∧
      f.resolver util = .ret (.item (.errors e))) ∨
    (∃ r op, f = .item r ∧ r.operation util = .ok op ∧
      f.resolver util = .call (.item op) fun a => .ret (.item (r.response a))) ∨
    f = .listPosts ∧ f.resolver util =
      .call (.scan listPosts.request) fun a => .ret (.list (listPosts.response a)) := by
  cases f with
  | listPosts => exact Or.inr (Or.inr ⟨rfl, rfl⟩)
  | item r =>
      cases hop : r.operation util with
      | error e => exact Or.inl ⟨r, e, rfl, hop, by rw [Field.resolver, hop]⟩
      | ok op => exact Or.inr (Or.inl ⟨r, op, rfl, hop, by rw [Field.resolver, hop]⟩)

/-- A resolver makes one call at most. -/
theorem resolver_last (util : Util) (f : Field) : Final (f.resolver util) ∨
    ∃ op next, f.resolver util = .call op next ∧ ∀ r, Final (next r) := by
  rcases resolver_cases util f with ⟨_, _, _, _, hf⟩ | ⟨_, _, _, _, hf⟩ | ⟨_, hf⟩
  · exact Or.inl ⟨_, hf⟩
  · exact Or.inr ⟨_, _, hf, fun r => ⟨_, rfl⟩⟩
  · exact Or.inr ⟨_, _, hf, fun r => ⟨_, rfl⟩⟩

theorem run_pending {C : Guard ι ApiOperation ApiAnswer Posts}
    (h : Run apiEffect C (apiStart util t₀ fields) c) : Pending util fields c := by
  refine h.invariant (fun c e c' hs hp j => ?_) fun i => Or.inl rfl
  obtain ⟨i, op, r⟩ := e
  obtain ⟨next, hcall, hnext⟩ := hs.program
  by_cases hj : j = i
  · subst hj
    rcases hp j with hres | ⟨⟨reply, hret⟩, _⟩
    · rcases resolver_last util (fields j) with ⟨a, ha⟩ | ⟨op', next', hf, hfinal⟩
      · rw [hres, ha] at hcall
        cases hcall
      · rw [hres, hf] at hcall
        cases hcall
        obtain ⟨reply, hreply⟩ := hfinal r
        refine Or.inr ⟨⟨reply, hnext.trans hreply⟩, ?_⟩
        rw [hf]
        intro h'
        obtain ⟨a, ha⟩ := h'
        cases ha
    · rw [hret] at hcall
      cases hcall
  · rw [hs.others hj]
    exact hp j

/-- **In every run the answers reflect the store if and only if** the resolvers can tell: a request
    that builds no operation is answered with its error; and of the operations of the others, those
    of createPost and getPost must not fail, those of updatePost and deletePost must not fail after
    they took effect. -/
theorem reflects_iff (util : Util) (t₀ : Posts) (fields : ι → Field) {c : ApiState ι}
    (h : Run apiEffect free (apiStart util t₀ fields) c) :
    (∀ i r e, fields i = .item r → r.operation util = .error e →
      c.pool i = .ret (.item (.errors e))) ∧
    ∀ e c', Step apiEffect free c e c' → ∃ reply, c'.pool e.who = .ret reply ∧
      (Reflects reply e.res c.store c'.store ↔ Tells (fields e.who) e.res c.store c'.store) := by
  have hpending := run_pending h
  constructor
  · intro i r e hfield herror
    have hres : (fields i).resolver util = .ret (.item (.errors e)) := by
      rw [hfield, Field.resolver, herror]
    rcases hpending i with hp | ⟨_, hcall⟩
    · exact hp.trans hres
    · exact absurd ⟨_, hres⟩ hcall
  · intro e c' hs
    cases hs with
    | call i op next r s' hcall hc he =>
        have hres : (fields i).resolver util = .call op next := by
          rcases hpending i with hp | ⟨⟨reply, hret⟩, _⟩
          · exact hp.symm.trans hcall
          · rw [hret] at hcall
            cases hcall
        show ∃ reply, Function.update c.pool i (next r) i = .ret reply ∧
          (Reflects reply r c.store s' ↔ Tells (fields i) r c.store s')
        rw [Function.update_self]
        rcases resolver_cases util (fields i) with ⟨_, _, _, _, hf⟩ | ⟨req, op', hfield, _, hf⟩ |
          ⟨hfield, hf⟩
        · rw [hf] at hres
          cases hres
        · rw [hf] at hres
          cases hres
          rw [hfield]
          refine ⟨_, rfl, ?_⟩
          cases req with
          | createPost id now ctx => exact resultOnly_reflects r
          | getPost ctx => exact resultOnly_reflects r
          | updatePost ctx => exact authorResponse_reflects r
          | deletePost ctx => exact authorResponse_reflects r
        · rw [hf] at hres
          cases hres
          rw [hfield]
          exact ⟨_, rfl, iff_of_true (listPosts_reflects he) trivial⟩

end Runs

/-! ## 4. A failure nobody is told of -/

def throttled : Error := ⟨"ThrottlingException", "Rate exceeded"⟩

def context : Context where
  username := some "alice"
  args := { id := some (.str "1"), title := some (.str "t"), content := some (.str "c") }

/-- A post is created, and read. -/
def twoFields (create : Bool) : Field :=
  .item (if create then .createPost "1" "2025-01-01T00:00:00Z" context else .getPost context)

abbrev emptyStart : ApiState Bool := apiStart ⟨none⟩ Keyed.empty twoFields

theorem reflects_iff_start : (∀ i r e, twoFields i = .item r → r.operation ⟨none⟩ = .error e →
      emptyStart.pool i = .ret (.item (.errors e))) ∧
    ∀ e c', Step apiEffect free emptyStart e c' → ∃ reply, c'.pool e.who = .ret reply ∧
      (Reflects reply e.res emptyStart.store c'.store ↔
        Tells (twoFields e.who) e.res emptyStart.store c'.store) :=
  reflects_iff ⟨none⟩ Keyed.empty twoFields .start

/-- The operation is refused. -/
theorem throttled_step (create : Bool) : ∃ op c', Step apiEffect free emptyStart
    ⟨create, .item op, .error throttled⟩ c' ∧ c'.store = emptyStart.store ∧
      c'.pool create = .ret (.item (.data none)) := by
  have hop : ∃ op next, (twoFields create).resolver ⟨none⟩ = .call (.item op) next ∧
      next (.error throttled) = .ret (.item (.data none)) := by
    cases create with
    | true => exact ⟨_, _, rfl, rfl⟩
    | false => exact ⟨_, _, rfl, rfl⟩
  obtain ⟨op, next, hf, hnext⟩ := hop
  have heffect : apiEffect (.item op) emptyStart.store (.error throttled) emptyStart.store :=
    .item (.refused _ ⟨throttled, rfl⟩)
  have hs : Step apiEffect free emptyStart ⟨create, .item op, .error throttled⟩ _ :=
    .call emptyStart create (.item op) next (.error throttled) emptyStart.store hf trivial heffect
  exact ⟨op, _, hs, rfl, (Function.update_self create _ _).trans hnext⟩

/-- The operation of the field fails, and the field is answered without an error. -/
def Unreported (create : Bool) : Prop :=
  ∃ op c' reply, Step apiEffect free emptyStart ⟨create, .item op, .error throttled⟩ c' ∧
    c'.pool create = .ret reply ∧ reply.isError = false ∧
      ¬ @Reflects reply (.item op) (.error throttled) emptyStart.store c'.store

theorem unreported (create : Bool) : Unreported create := by
  obtain ⟨op, c', hs, _, hpool⟩ := throttled_step create
  refine ⟨op, c', _, hs, hpool, rfl, fun h => ?_⟩
  cases h.reported ⟨throttled, rfl⟩

/-- **A failed createPost and a failed getPost are answered without an error.** -/
theorem throttled_not_reflected : Unreported true ∧ Unreported false :=
  ⟨unreported true, unreported false⟩

end AppSync
