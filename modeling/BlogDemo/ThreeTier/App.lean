/-
  File:      BlogDemo/ThreeTier/App.lean
  Subject:   THE CONNECTIONS OF THE 3-TIER APP (aws-3-tier-architecture-example/app.js): the set-up of
             the database and the two routes that use the pool, in any number and any order.

  * `initDB`, `dbStatus`, `save` -- the source, as programs of calls to the pool. The set-up gives its
    connection back in a `finally`, the routes after their query, inside the `try`;
  * `Resting` -- no invocation is under way; `Returned` -- each has given back what it took, once;
  * **`returned_iff`** -- in every run and whenever it rests, all connections are back and the pool is
    not exhausted if and only if no query of a route has failed;
  * `failed_saves` -- a failed query keeps its place in the pool for good, so as many failed requests
    as the pool has places end it.
-/
import BlogDemo.Lib.ConnectionPool
import BlogDemo.Lib.Js

namespace ThreeTier

open Js Atomic ConnectionPool
open Prog (Final Trace)

/-! ## 1. The source -/

/-- A statement and the values of its placeholders. -/
structure Statement where
  sql : String
  values : List Json
  deriving DecidableEq

/-- What an async function comes to. Express 5 answers a handler that rejects with 500. -/
inductive Outcome where
  | sent (status : Nat) (body : Json)
  | done
  | rejected (e : Error)

variable {Conn Out : Type}

/-- A program of calls to the pool. -/
abbrev Handler (Conn Out : Type) := Prog (Op Conn Statement) (Answer Out Error) Outcome

/-- What one process runs, over its pool. -/
abbrev Machine (ι Conn Out : Type) :=
  Config ι (Op Conn Statement) (Answer Out Error) Outcome (Pool Conn)

/-- The calls of one invocation. -/
abbrev Calls (Conn Out : Type) := List (Made (Op Conn Statement) (Answer Out Error))

def createTable : Statement where
  sql := "CREATE TABLE IF NOT EXISTS test (
      id INT AUTO_INCREMENT PRIMARY KEY,
      content VARCHAR(255) NOT NULL,
      created_at TIMESTAMP DEFAULT CURRENT_TIMESTAMP
    )"
  values := []

/-- `try { await conn.query(createTable) } finally { conn.release() }`, with a connection taken
    before it. -/
def initDB : Handler Conn Out :=
  .call .getConnection fun
    | .error e => .ret (.rejected e)
    | .ok conn => .call (.query conn createTable) fun
      | .ok _ => .call (.release conn) fun _ => .ret .done
      | .error e => .call (.release conn) fun _ => .ret (.rejected e)

/-- A connection, one statement and the release, all inside the `try` of a route. -/
def overConnection (statement : Statement) (reply : Outcome) (failed : Error → Outcome) :
    Handler Conn Out :=
  Prog.catching (do
    let conn ← ExceptT.mk (Prog.send .getConnection)
    let _ ← ExceptT.mk (Prog.send (.query conn statement))
    let _ ← ExceptT.mk (Prog.send (.release conn))
    return reply) failed

/-- GET /db-status -/
def dbStatus : Handler Conn Out :=
  overConnection ⟨"SELECT 1", []⟩ (.sent 200 (.obj [("status", .str "OK")])) fun err =>
    .sent 200 (.obj [("status", .str "ERROR"), ("message", .str err.message)])

/-- `res.json({ success, message })` -/
def result (status : Nat) (success : Bool) (message : String) : Outcome :=
  .sent status (.obj [("success", .bool success), ("message", .str message)])

/-- POST /save. A request without a JSON body has no `req.body`, and reading `content` of it
    throws before the `try`. -/
def save (body : Option Json) : Handler Conn Out :=
  match body with
  | none => .ret (.rejected ⟨"TypeError",
      "Cannot destructure property 'content' of 'req.body' as it is undefined."⟩)
  | some body =>
    match body.get? "content" with
    | none => .ret (result 400 false "content 값 필요")
    | some content =>
      if !truthy (some content) then .ret (result 400 false "content 값 필요")
      else overConnection ⟨"INSERT INTO test (content) VALUES (?)", [content]⟩
        (result 200 true "저장 성공") fun _ => result 500 false "DB 저장 실패"

/-- What runs in the process. -/
inductive Task where
  | initDB
  | dbStatus
  | save (body : Option Json)

def Task.program : Task → Handler Conn Out
  | .initDB => ThreeTier.initDB
  | .dbStatus => ThreeTier.dbStatus
  | .save body => ThreeTier.save body

/-- The request has a handler of a route. -/
def Task.IsRoute : Task → Prop
  | .initDB => False
  | _ => True

/-! ## 2. One invocation, at its end -/

section Calls

variable [DecidableEq Conn] {es : Calls Conn Out}
  {p' : Handler Conn Out}

/-- The calls have given back what they took, each once. -/
def Balanced (es : Calls Conn Out) : Prop :=
  releasedBy es = takenBy es

/-- A query among the calls failed. -/
def QueryFailed (es : Calls Conn Out) : Prop :=
  ∃ e ∈ es, FailedQuery e.op e.res

/-- The calls hold nothing, and are balanced, unless a query failed. -/
structure Settles (es : Calls Conn Out) : Prop where
  balanced : Balanced es ↔ ¬ QueryFailed es
  nothing : Balanced es → heldBy es = ∅

theorem settles_nil : Settles ([] : Calls Conn Out) where
  balanced := iff_of_true rfl fun ⟨_, he, _⟩ => List.not_mem_nil he
  nothing _ := rfl

/-- A caller that got no connection. -/
theorem settles_refused (e : Error) :
    Settles ([⟨.getConnection, .error e⟩] : Calls Conn Out) where
  balanced := by
    refine iff_of_true rfl ?_
    intro h
    obtain ⟨m, hm, hfailed⟩ := h
    rw [List.mem_singleton] at hm
    subst hm
    exact hfailed
  nothing _ := rfl

/-- A connection that is left behind when its query fails. -/
theorem settles_failed (conn : Conn) (statement : Statement) (e : Error) :
    Settles ([⟨.getConnection, .ok conn⟩, ⟨.query conn statement, .error e⟩] :
      Calls Conn Out) := by
  have hleft : ¬ Balanced ([⟨.getConnection, .ok conn⟩, ⟨.query conn statement, .error e⟩] :
      Calls Conn Out) := by
    intro h
    cases h
  have hfailed : QueryFailed ([⟨.getConnection, .ok conn⟩, ⟨.query conn statement, .error e⟩] :
      Calls Conn Out) :=
    ⟨⟨.query conn statement, .error e⟩, List.mem_cons_of_mem _ List.mem_cons_self, trivial⟩
  exact ⟨iff_of_false hleft (not_not_intro hfailed), fun h => absurd h hleft⟩

/-- A connection that is given back after one query. -/
theorem released_back (conn : Conn) (statement : Statement) (r : Except Error Out)
    (r' : Except Error Unit) :
    let es : Calls Conn Out :=
      [⟨.getConnection, .ok conn⟩, ⟨.query conn statement, r⟩, ⟨.release conn, r'⟩]
    Balanced es ∧ heldBy es = ∅ :=
  ⟨rfl, by simp [heldBy, hold, taken?, released?]⟩

/-- The set-up gives its connection back whatever becomes of its query. -/
theorem initDB_balanced (h : initDB.Trace es p') (hf : p'.Final) :
    Balanced es ∧ heldBy es = ∅ := by
  obtain ⟨r, es₁, rfl, h₁⟩ := h.of_call hf
  cases r with
  | error e =>
      obtain rfl := h₁.of_ret
      exact ⟨rfl, rfl⟩
  | ok conn =>
      obtain ⟨r, es₂, rfl, h₂⟩ := h₁.of_call hf
      -- the `finally` runs either way
      cases r with
      | ok out =>
          obtain ⟨r', es₃, rfl, h₃⟩ := h₂.of_call hf
          obtain rfl := h₃.of_ret
          exact released_back conn createTable (.ok out) r'
      | error e =>
          obtain ⟨r', es₃, rfl, h₃⟩ := h₂.of_call hf
          obtain rfl := h₃.of_ret
          exact released_back conn createTable (.error e) r'

/-- A route leaves its connection behind if and only if its query fails. -/
theorem overConnection_settles {statement : Statement} {reply : Outcome} {failed : Error → Outcome}
    (h : (overConnection statement reply failed).Trace es p') (hf : p'.Final) : Settles es := by
  simp only [overConnection, Prog.catching_send, Prog.catching_pure] at h
  obtain ⟨r, es₁, rfl, h₁⟩ := h.of_call hf
  cases r with
  | error e =>
      obtain rfl := h₁.of_ret
      exact settles_refused e
  | ok conn =>
      obtain ⟨r, es₂, rfl, h₂⟩ := h₁.of_call hf
      cases r with
      | error e =>
          -- the release is skipped
          obtain rfl := h₂.of_ret
          exact settles_failed conn statement e
      | ok out =>
          obtain ⟨r', es₃, rfl, h₃⟩ := h₂.of_call hf
          have hes₃ : es₃ = [] := by
            cases r' with
            | ok _ => exact h₃.of_ret
            | error _ => exact h₃.of_ret
          subst hes₃
          obtain ⟨hback, hnothing⟩ := released_back conn statement (.ok out : Except Error Out) r'
          exact ⟨iff_of_true hback (by simp [QueryFailed, FailedQuery]), fun _ => hnothing⟩

/-- **Every route settles.** -/
theorem route_settles {t : Task} (ht : t.IsRoute) (h : t.program.Trace es p') (hf : p'.Final) :
    Settles es := by
  cases t with
  | initDB => exact absurd ht id
  | dbStatus => exact overConnection_settles h hf
  | save body =>
      simp only [Task.program, save] at h
      split at h
      · obtain rfl := h.of_ret
        exact settles_nil
      · split at h
        · obtain rfl := h.of_ret
          exact settles_nil
        · split at h
          · obtain rfl := h.of_ret
            exact settles_nil
          · exact overConnection_settles h hf

end Calls

/-! ## 3. Every run -/

section Runs

variable {ι : Type} [DecidableEq ι] [DecidableEq Conn] {limit : Nat} {tasks : ι → Task}
  {c : Machine ι Conn Out}

/-- No handler is running: each is done, or has not begun. -/
def Resting (c : Machine ι Conn Out) : Prop :=
  ∀ i, (c.pool i).Final ∨ callsOf i c.hist = []

/-- **All connections taken from the pool have been released, each exactly once.** -/
def Returned (c : Machine ι Conn Out) : Prop :=
  ∀ i, Balanced (callsOf i c.hist)

/-- Every query of a route was answered with a result. -/
def QueriesAnswered (tasks : ι → Task)
    (c : Machine ι Conn Out) : Prop :=
  ∀ e ∈ c.hist, FailedQuery e.op e.res → ¬ (tasks e.who).IsRoute

/-- What one invocation of a run has called, when the app rests. -/
theorem task_settles (h : Run (effect limit) free (Config.init Pool.idle fun i => (tasks i).program) c)
    (hrest : Resting c) (i : ι) (hi : (tasks i).IsRoute) : Settles (callsOf i c.hist) := by
  rcases hrest i with hf | hnone
  · exact route_settles hi (run_trace h i) hf
  · rw [hnone]
    exact settles_nil

theorem initDB_settles (h : Run (effect limit) free (Config.init Pool.idle fun i => (tasks i).program) c)
    (hrest : Resting c) (i : ι) (hi : tasks i = .initDB) :
    Balanced (callsOf i c.hist) ∧ heldBy (callsOf i c.hist) = ∅ := by
  rcases hrest i with hf | hnone
  · have htrace := run_trace h i
    rw [hi] at htrace
    exact initDB_balanced htrace hf
  · rw [hnone]
    exact ⟨rfl, rfl⟩

theorem eq_initDB {t : Task} (h : ¬ t.IsRoute) : t = .initDB := by
  cases t with
  | initDB => rfl
  | dbStatus => exact absurd trivial h
  | save body => exact absurd trivial h

/-- Nobody holds a connection once all are back. -/
theorem heldBy_of_returned
    (h : Run (effect limit) free (Config.init Pool.idle fun i => (tasks i).program) c)
    (hrest : Resting c) (hback : Returned c) (i : ι) : heldBy (callsOf i c.hist) = ∅ := by
  by_cases hi : (tasks i).IsRoute
  · exact (task_settles h hrest i hi).nothing (hback i)
  · exact (initDB_settles h hrest i (eq_initDB hi)).2

/-- **No connection leaks**: whenever the app rests, all connections are back and the pool is not
    exhausted if and only if no query of a route has failed. -/
theorem returned_iff (hlimit : 0 < limit)
    (h : Run (effect limit) free (Config.init Pool.idle fun i => (tasks i).program) c)
    (hrest : Resting c) :
    (Returned c ∧ ¬ c.store.Exhausted limit) ↔ QueriesAnswered tasks c := by
  constructor
  · rintro ⟨hback, _⟩ e he hfailed hroute
    exact (task_settles h hrest e.who hroute).balanced.mp (hback e.who) ⟨_, mem_callsOf he, hfailed⟩
  · intro hanswered
    have hback : Returned c := by
      intro i
      by_cases hi : (tasks i).IsRoute
      · refine (task_settles h hrest i hi).balanced.mpr ?_
        intro h'
        obtain ⟨m, hm, hfailed⟩ := h'
        obtain ⟨e, he, rfl, rfl⟩ := exists_of_mem_callsOf hm
        exact hanswered e he hfailed hi
      · exact (initDB_settles h hrest i (eq_initDB hi)).1
    refine ⟨hback, ?_⟩
    rw [Pool.Exhausted, idle_of_heldBy h (heldBy_of_returned h hrest hback)]
    exact Nat.not_le.mpr hlimit

/-- One answered request to /db-status. -/
theorem returned_iff_dbStatus : ∃ c : Machine Unit Nat Unit,
    Run (effect 10) free (Config.init Pool.idle fun _ => Task.dbStatus.program) c ∧
    callsOf () c.hist = [⟨.getConnection, .ok 0⟩, ⟨.query 0 ⟨"SELECT 1", []⟩, .ok ()⟩,
      ⟨.release 0, .ok ()⟩] ∧
    ((Returned c ∧ ¬ c.store.Exhausted 10) ↔ QueriesAnswered (fun _ => Task.dbStatus) c) := by
  have hexec : Exec (effect 10) (Task.dbStatus.program : Handler Nat Unit) Pool.idle _ _ _ :=
    .call (.given 0 Pool.idle (Finset.notMem_empty 0) (Finset.notMem_empty 0) (by decide))
      (.call (.answered 0 _ (.ok ()) _) (.call (.released 0 _) (.ret _ _)))
  have hrun := run_alone (c := Config.init Pool.idle fun _ : Unit => Task.dbStatus.program)
    (i := ()) rfl hexec
  refine ⟨_, hrun, rfl, returned_iff (by decide) hrun ?_⟩
  rintro ⟨⟩
  refine Or.inl ?_
  dsimp only
  rw [Function.update_self]
  exact Prog.final_ret _

end Runs

/-! ## 4. What a failed query costs -/

section Leak

/-- A request to /save with a content. -/
def saveRequest (content : Json) : Task := .save (some (.obj [("content", content)]))

/-- The app after `n` requests whose queries failed: as many connections are taken, and nobody will
    give them back. -/
structure Leaked (content : Json) (n : Nat)
    (c : Machine Nat Nat Unit) : Prop where
  store : c.store = ⟨Finset.range n, ∅⟩
  settled : ∀ i < n, (c.pool i).Final
  ahead : ∀ i, n ≤ i → c.pool i = (saveRequest content).program ∧ callsOf i c.hist = []

/-- The request takes a connection and sends its statement. -/
theorem saveRequest_program {content : Json} (hcontent : truthy (some content) = true) :
    ((saveRequest content).program : Handler Conn Out) =
      overConnection ⟨"INSERT INTO test (content) VALUES (?)", [content]⟩
        (result 200 true "저장 성공") fun _ => result 500 false "DB 저장 실패" := by
  simp [saveRequest, Task.program, save, Json.get?, hcontent]

/-- The run of a request whose query fails, with room for one more connection. -/
theorem failed_exec {content : Json} (hcontent : truthy (some content) = true) {limit n : Nat}
    (hn : n < limit) (e : Error) : ∃ es a, Exec (effect limit)
      ((saveRequest content).program : Handler Nat Unit) ⟨Finset.range n, ∅⟩ es a
      ⟨Finset.range (n + 1), ∅⟩ := by
  rw [saveRequest_program hcontent]
  simp only [overConnection, Prog.catching_send, Prog.catching_pure]
  rw [Finset.range_add_one]
  refine ⟨_, _, .call (.given n _ Finset.notMem_range_self (Finset.notMem_empty n) ?_)
    (.call (.answered n _ (.error e) _) (.ret _ _))⟩
  rwa [Finset.card_range]

/-- One more request whose query fails keeps one more connection. -/
theorem leaked_step {content : Json} (hcontent : truthy (some content) = true) {limit n : Nat}
    (hn : n < limit) {c : Machine Nat Nat Unit}
    (h : Leaked content n c) : ∃ c', Run (effect limit) free c c' ∧ Leaked content (n + 1) c' := by
  let refused : Error := ⟨"Error", "Data too long for column 'content' at row 1"⟩
  obtain ⟨es, a, hexec⟩ := failed_exec hcontent hn refused
  rw [← h.store] at hexec
  refine ⟨_, run_alone (h.ahead n le_rfl).1 hexec, rfl, fun i hi => ?_, fun i hi => ?_⟩
  · show (Function.update c.pool n (.ret a) i).Final
    by_cases heq : i = n
    · subst heq
      rw [Function.update_self]
      exact Prog.final_ret a
    · rw [Function.update_of_ne heq]
      exact h.settled i (by omega)
  · show Function.update c.pool n (.ret a) i = _ ∧ callsOf i (c.hist ++ callsBy n es) = []
    have hne : i ≠ n := by omega
    obtain ⟨hprog, hnone⟩ := h.ahead i (by omega)
    rw [Function.update_of_ne hne, callsOf_callsBy_of_ne es (Ne.symm hne)]
    exact ⟨hprog, hnone⟩

/-- **As many failed requests as the pool has places, and none is left.** -/
theorem failed_saves {content : Json} (hcontent : truthy (some content) = true) {limit n : Nat}
    (hn : n ≤ limit) : ∃ c, Run (effect limit) free
      (Config.init Pool.idle fun _ => (saveRequest content).program) c ∧ Leaked content n c := by
  induction n with
  | zero =>
      exact ⟨_, .start, rfl, fun i hi => absurd hi (Nat.not_lt_zero i), fun i _ => ⟨rfl, rfl⟩⟩
  | succ n ih =>
      obtain ⟨c, hrun, hc⟩ := ih (Nat.le_of_succ_le hn)
      obtain ⟨c', hstep, hc'⟩ := leaked_step hcontent hn hc
      exact ⟨c', hrun.trans hstep, hc'⟩

/-- One character more than the column holds. -/
def tooLong : Json := .str (String.ofList (List.replicate 256 'a'))

theorem tooLong_truthy : truthy (some tooLong) = true := by
  have hne : ∀ n, String.ofList (List.replicate (n + 1) 'a') ≠ "" := by
    intro n h
    simpa [List.replicate_succ] using congrArg String.toList h
  exact bne_iff_ne.mpr (hne 255)

theorem Leaked.resting {content : Json} {n : Nat}
    {c : Machine Nat Nat Unit}
    (h : Leaked content n c) : Resting c := by
  intro i
  rcases Nat.lt_or_ge i n with hi | hi
  · exact Or.inl (h.settled i hi)
  · exact Or.inr (h.ahead i hi).2

/-- Ten requests with a content that is too long, and mysql2's ten connections are gone. -/
theorem tooLong_exhausts : ∃ c : Machine Nat Nat Unit, Run (effect 10) free
    (Config.init Pool.idle fun _ => (saveRequest tooLong).program) c ∧
    Resting c ∧ ¬ Returned c ∧ c.store.Exhausted 10 := by
  obtain ⟨c, hrun, hleaked⟩ := failed_saves tooLong_truthy (le_refl 10)
  have htaken : c.store.taken = Finset.range 10 := by rw [hleaked.store]
  refine ⟨c, hrun, hleaked.resting, fun hback => ?_, ?_⟩
  · have hidle := idle_of_heldBy hrun (heldBy_of_returned hrun hleaked.resting hback)
    rw [htaken] at hidle
    exact absurd hidle (by decide)
  · rw [Pool.Exhausted, htaken, Finset.card_range]

end Leak

end ThreeTier
