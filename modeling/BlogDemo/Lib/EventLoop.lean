/-
  File:      BlogDemo/Lib/EventLoop.lean
  Subject:   CODE THAT RUNS WITHOUT INTERRUPTION BETWEEN AWAITS. A flow reads and writes the variables
             it shares with others at once, and gives up control where it awaits something.

  * `Instr`, `Code` -- a flow: instructions that take effect now, and awaits;
  * `block` -- what runs without interruption: up to the next await, or to the end;
  * `Contract`, `Obeys` -- what every block of a flow writes and what it awaits at its end, as far as
    the awaits are answered as assumed;
  * **`obeys_block`** -- one block of a flow that obeys its contract; what is left obeys it too.
-/
import BlogDemo.Lib.Prog

namespace EventLoop

open Atomic

/-- An instruction: an access to the variables, or an await. -/
inductive Instr (S A : Type) where
  | now (s : S)
  | await (a : A)

variable {S A V R : Type} {SOut : S → Type} {AOut : A → Type}

abbrev Instr.Out (SOut : S → Type) (AOut : A → Type) : Instr S A → Type
  | .now s => SOut s
  | .await a => AOut a

/-- A flow, or what is left of it. -/
abbrev Code (SOut : S → Type) (AOut : A → Type) (R : Type) := Prog (Instr S A) (Instr.Out SOut AOut) R

/-- Where a block stops. -/
inductive Rest (SOut : S → Type) (AOut : A → Type) (R : Type) where
  | ended (r : R)
  | waiting (a : A) (next : AOut a → Code SOut AOut R)

/-- **A block**: the instructions up to the next await. -/
def block (f : Apply S SOut V) : Code SOut AOut R → V → V × Rest SOut AOut R
  | .ret r, v => (v, .ended r)
  | .call (.now s) next, v => block f (next (f s v).1) (f s v).2
  | .call (.await a) next, v => (v, .waiting a next)

/-- What a block begins with. -/
inductive Origin (AOut : A → Type) where
  | begun
  | answered (a : A) (r : AOut a)

/-- **A contract**: what a block may write, from the variables at its begin to those at its end, what
    it may await then, and what an await is assumed to be answered. -/
structure Contract (V : Type) (AOut : A → Type) where
  writes : Origin AOut → V → V → Prop
  awaits : Origin AOut → V → A → Prop
  answers : (a : A) → AOut a → Prop

/-- **The flow obeys the contract**, when the block it is in began at `o` with the variables `v₀`. -/
def Obeys (f : Apply S SOut V) (C : Contract V AOut) :
    Origin AOut → V → Code SOut AOut R → V → Prop
  | o, v₀, .ret _, v => C.writes o v₀ v
  | o, v₀, .call (.now s) next, v => Obeys f C o v₀ (next (f s v).1) (f s v).2
  | o, v₀, .call (.await a) next, v => C.writes o v₀ v ∧ C.awaits o v a ∧
      ∀ r, C.answers a r → ∀ v₁, Obeys f C (.answered a r) v₁ (next r) v₁

/-- What is left of a flow obeys the contract, from its next block on. -/
def Rest.Obeys (f : Apply S SOut V) (C : Contract V AOut) (o : Origin AOut) (v : V) :
    Rest SOut AOut R → Prop
  | .ended _ => True
  | .waiting a next => C.awaits o v a ∧
      ∀ r, C.answers a r → ∀ v₁, EventLoop.Obeys f C (.answered a r) v₁ (next r) v₁

/-- **One block of a flow that obeys its contract.** -/
theorem obeys_block {f : Apply S SOut V} {C : Contract V AOut} {o : Origin AOut} {v₀ v : V}
    {p : Code SOut AOut R} (h : Obeys f C o v₀ p v) :
    C.writes o v₀ (block f p v).1 ∧ (block f p v).2.Obeys f C o (block f p v).1 := by
  induction p generalizing v with
  | ret r => exact ⟨h, trivial⟩
  | call op next ih =>
      cases op with
      | now s => exact ih _ h
      | await a => exact ⟨h.1, h.2⟩

end EventLoop
