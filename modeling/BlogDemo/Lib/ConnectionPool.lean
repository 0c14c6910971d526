/-
  File:      BlogDemo/Lib/ConnectionPool.lean
  Subject:   A LIMITED POOL OF DATABASE CONNECTIONS, as mysql2 keeps one: a caller takes a connection,
             sends its queries over it and gives it back; while the limit is taken, the next
             callers wait.

  * `Op`, `Answer`, `effect` -- the calls. A query answers anything; one that fails may have cost its
    connection, which the pool then forgets. A caller that waits makes no step;
  * `heldBy` -- the connections that a caller has taken and not given back;
  * **`taken_held`** -- in every run of any programs, what is taken from the pool is held by some
    invocation.
-/
import Mathlib.Data.Finset.Card
import Mathlib.Data.Set.Finite.Basic
import BlogDemo.Lib.Interleave

namespace ConnectionPool

open Atomic

variable {ι Conn Sql Out Error α : Type}

/-! ## 1. The calls -/

/-- `pool.getConnection()`, `conn.query(sql)` or `conn.execute(sql)`, and `conn.release()`. -/
inductive Op (Conn Sql : Type) where
  | getConnection
  | query (conn : Conn) (sql : Sql)
  | release (conn : Conn)

abbrev Value (Out : Type) : Op Conn Sql → Type
  | .getConnection => Conn
  | .query _ _ => Out
  | .release _ => Unit

abbrev Answer (Out Error : Type) (op : Op Conn Sql) : Type := Except Error (Value Out op)

/-- The pool: the connections that are taken, and those that were lost with a query. -/
structure Pool (Conn : Type) where
  taken : Finset Conn
  lost : Finset Conn

/-- No connection is taken. -/
def Pool.idle : Pool Conn := ⟨∅, ∅⟩

/-- As many connections are taken as the pool may open. -/
def Pool.Exhausted (limit : Nat) (p : Pool Conn) : Prop := limit ≤ p.taken.card

section Effect

variable [DecidableEq Conn]

/-- **What a call does to the pool.** A release is never refused. -/
inductive effect (limit : Nat) : Effect (Op Conn Sql) (Answer Out Error) (Pool Conn) where
  | given (conn : Conn) (p : Pool Conn) (ht : conn ∉ p.taken) (hl : conn ∉ p.lost)
      (hroom : p.taken.card < limit) :
      effect limit .getConnection p (.ok conn) { p with taken := insert conn p.taken }
  | refused (e : Error) (p : Pool Conn) : effect limit .getConnection p (.error e) p
  | answered (conn : Conn) (sql : Sql) (r : Except Error Out) (p : Pool Conn) :
      effect limit (.query conn sql) p r p
  | lost (conn : Conn) (sql : Sql) (e : Error) (p : Pool Conn) :
      effect limit (.query conn sql) p (.error e) ⟨p.taken.erase conn, insert conn p.lost⟩
  | released (conn : Conn) (p : Pool Conn) :
      effect limit (.release conn) p (.ok ()) { p with taken := p.taken.erase conn }

end Effect

/-! ## 2. What a caller has taken and given back -/

/-- The connection that a call was given. -/
def taken? : Made (Op Conn Sql) (Answer Out Error) → Option Conn
  | ⟨.getConnection, .ok conn⟩ => some conn
  | _ => none

/-- The connection that a call gave back. -/
def released? : Made (Op Conn Sql) (Answer Out Error) → Option Conn
  | ⟨.release conn, _⟩ => some conn
  | _ => none

/-- A query that failed. -/
def FailedQuery : (op : Op Conn Sql) → Answer Out Error op → Prop
  | .query _ _, .error _ => True
  | _, _ => False

/-- The connections that the calls were given, in their order. -/
def takenBy (es : List (Made (Op Conn Sql) (Answer Out Error))) : List Conn := es.filterMap taken?

/-- The connections that the calls gave back, in their order. -/
def releasedBy (es : List (Made (Op Conn Sql) (Answer Out Error))) : List Conn :=
  es.filterMap released?

variable [DecidableEq Conn]

/-- What is held after one more call. -/
def hold (held : Finset Conn) (e : Made (Op Conn Sql) (Answer Out Error)) : Finset Conn :=
  match taken? e, released? e with
  | some conn, _ => insert conn held
  | none, some conn => held.erase conn
  | none, none => held

/-- **The connections that the calls have taken and not given back.** -/
def heldBy (es : List (Made (Op Conn Sql) (Answer Out Error))) : Finset Conn := es.foldl hold ∅

@[simp] theorem heldBy_nil : heldBy ([] : List (Made (Op Conn Sql) (Answer Out Error))) = ∅ := rfl

theorem heldBy_snoc (es : List (Made (Op Conn Sql) (Answer Out Error)))
    (e : Made (Op Conn Sql) (Answer Out Error)) : heldBy (es ++ [e]) = hold (heldBy es) e := by
  simp [heldBy]

/-- What is taken after a call was taken before it or by it, and not given back by it. -/
theorem effect_taken {limit : Nat} {op : Op Conn Sql} {r : Answer Out Error op} {p p' : Pool Conn}
    (h : effect limit op p r p') {conn : Conn} (hconn : conn ∈ p'.taken) :
    taken? ⟨op, r⟩ = some conn ∨ conn ∈ p.taken ∧ released? ⟨op, r⟩ ≠ some conn := by
  have hnone : (none : Option Conn) ≠ some conn := (Option.some_ne_none conn).symm
  cases h with
  | given conn' p ht hl hroom =>
      rcases Finset.mem_insert.mp hconn with rfl | hold
      · exact Or.inl rfl
      · exact Or.inr ⟨hold, hnone⟩
  | refused e p => exact Or.inr ⟨hconn, hnone⟩
  | answered conn' sql r p => exact Or.inr ⟨hconn, hnone⟩
  | lost conn' sql e p => exact Or.inr ⟨Finset.mem_of_mem_erase hconn, hnone⟩
  | released conn' p =>
      refine Or.inr ⟨Finset.mem_of_mem_erase hconn, fun heq => ?_⟩
      exact Finset.ne_of_mem_erase hconn (Option.some.inj heq).symm

/-- What was held before a call, and is not given back by it, is held after it. -/
theorem mem_hold {held : Finset Conn} {e : Made (Op Conn Sql) (Answer Out Error)} {conn : Conn}
    (h : taken? e = some conn ∨ conn ∈ held ∧ released? e ≠ some conn) : conn ∈ hold held e := by
  unfold hold
  rcases h with h | ⟨hheld, hkept⟩
  · rw [h]
    exact Finset.mem_insert_self _ _
  · split
    · exact Finset.mem_insert_of_mem hheld
    · rename_i conn' hreleased
      refine Finset.mem_erase.mpr ⟨fun heq => hkept ?_, hheld⟩
      rw [hreleased, heq]
    · exact hheld

/-! ## 3. Every run -/

section Runs

variable [DecidableEq ι] {limit : Nat} {C : Guard ι (Op Conn Sql) (Answer Out Error) (Pool Conn)}
  {pool : ι → Prog (Op Conn Sql) (Answer Out Error) α}
  {c c' : Config ι (Op Conn Sql) (Answer Out Error) α (Pool Conn)}

/-- Whatever is taken from the pool is held by an invocation. -/
def TakenHeld (c : Config ι (Op Conn Sql) (Answer Out Error) α (Pool Conn)) : Prop :=
  ∀ conn ∈ c.store.taken, ∃ i, conn ∈ heldBy (callsOf i c.hist)

theorem takenHeld_step {e : Call ι (Op Conn Sql) (Answer Out Error)}
    (hs : Step (effect limit) C c e c') (h : TakenHeld c) : TakenHeld c' := by
  intro conn hconn
  have heffect := effect_taken hs.effect hconn
  cases hs with
  | call i op next r s' hp hc he =>
      show ∃ j, conn ∈ heldBy (callsOf j (c.hist ++ [⟨i, op, r⟩]))
      rcases heffect with hnew | ⟨hold, hkept⟩
      · refine ⟨i, ?_⟩
        rw [callsOf_self, heldBy_snoc]
        exact mem_hold (Or.inl hnew)
      · obtain ⟨j, hj⟩ := h conn hold
        refine ⟨j, ?_⟩
        by_cases hij : i = j
        · subst hij
          rw [callsOf_self, heldBy_snoc]
          exact mem_hold (Or.inr ⟨hj, hkept⟩)
        · rw [callsOf_of_ne r hij]
          exact hj

/-- **What is taken from the pool is held by an invocation**, in every run. -/
theorem taken_held (h : Run (effect limit) C (Config.init Pool.idle pool) c) : TakenHeld c :=
  h.invariant (fun _ _ _ hs => takenHeld_step hs) fun _ hconn => absurd hconn (Finset.notMem_empty _)

/-- The pool is idle again when nobody holds a connection. -/
theorem idle_of_heldBy (h : Run (effect limit) C (Config.init Pool.idle pool) c)
    (hheld : ∀ i, heldBy (callsOf i c.hist) = ∅) : c.store.taken = ∅ := by
  refine Finset.eq_empty_of_forall_notMem fun conn hconn => ?_
  obtain ⟨i, hi⟩ := taken_held h conn hconn
  rw [hheld i] at hi
  exact Finset.notMem_empty _ hi

end Runs

end ConnectionPool
