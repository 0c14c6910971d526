/-
  File:      BlogDemo/Lib/ControlLoop.lean
  Subject:   A CONTROL LOOP: a queue of requests, and one worker that runs a program for each of them, call
             by call, while everybody else goes on. A program that fails is queued again.

  A request that is queued while its program runs waits until that has ended. Requests leave the queue in
  any order, since one that failed is held back for a while.

  * `System`, `State`, `Step`, `Reachable` -- the loop; `restart` loses the queue and the worker;
  * `Stable`, `Keeps` -- what a program knows between its calls, whatever the others do meanwhile;
    **`run_keeps`**, **`call_guar`** -- of every run;
  * `Tracks`, **`run_clean`** -- a request that is neither queued nor worked on has nothing left to do, if
    no step but its own removal from the queue can change that, and its program establishes it.
-/
import BlogDemo.Lib.Prog

namespace ControlLoop

open Atomic

/-! ## 1. The loop -/

/-- **A control loop**: `ρ` is what a run remembers from call to call, `σ` the world. -/
structure System (Req Op : Type) (Res : Op → Type) (ε ρ σ : Type) where
  reconcile : Req → Prog Op Res (Except ε Unit)
  /-- What a run remembers at its start. -/
  fresh : ρ
  call : Effect Op Res (ρ × σ)
  /-- A step of somebody else, and the requests that it queues. -/
  others : σ → List Req → σ → Prop
  /-- A restart, and the requests that are queued after it. -/
  restart : σ → List Req → σ → Prop

/-- The request that is worked on, and what is still to be done for it. -/
structure Worker (Req Op : Type) (Res : Op → Type) (ε ρ : Type) where
  req : Req
  mem : ρ
  rest : Prog Op Res (Except ε Unit)

structure State (Req Op : Type) (Res : Op → Type) (ε ρ σ : Type) where
  store : σ
  queue : List Req
  worker : Option (Worker Req Op Res ε ρ)

variable {Req Op : Type} {Res : Op → Type} {ε ρ σ : Type} [DecidableEq Req]

/-- **One step.** -/
inductive Step (S : System Req Op Res ε ρ σ) :
    State Req Op Res ε ρ σ → State Req Op Res ε ρ σ → Prop where
  | others (s s' : σ) (q reqs : List Req) (w : Option (Worker Req Op Res ε ρ))
      (h : S.others s reqs s') : Step S ⟨s, q, w⟩ ⟨s', q ++ reqs, w⟩
  | restart (s s' : σ) (q reqs : List Req) (w : Option (Worker Req Op Res ε ρ))
      (h : S.restart s reqs s') : Step S ⟨s, q, w⟩ ⟨s', reqs, none⟩
  | start (s : σ) (q : List Req) (k : Req) (hk : k ∈ q) :
      Step S ⟨s, q, none⟩ ⟨s, q.filter (· ≠ k), some ⟨k, S.fresh, S.reconcile k⟩⟩
  | call (s s' : σ) (q : List Req) (k : Req) (x x' : ρ) (op : Op)
      (next : Res op → Prog Op Res (Except ε Unit)) (r : Res op)
      (h : S.call op (x, s) r (x', s')) :
      Step S ⟨s, q, some ⟨k, x, .call op next⟩⟩ ⟨s', q, some ⟨k, x', next r⟩⟩
  | done (s : σ) (q : List Req) (k : Req) (x : ρ) :
      Step S ⟨s, q, some ⟨k, x, .ret (.ok ())⟩⟩ ⟨s, q, none⟩
  | retry (s : σ) (q : List Req) (k : Req) (x : ρ) (e : ε) :
      Step S ⟨s, q, some ⟨k, x, .ret (.error e)⟩⟩ ⟨s, k :: q, none⟩

/-- **What is reached** from a start in any world. -/
inductive Reachable (S : System Req Op Res ε ρ σ) : State Req Op Res ε ρ σ → Prop where
  | boot {s s' : σ} {reqs : List Req} (h : S.restart s reqs s') : Reachable S ⟨s', reqs, none⟩
  | step {st st' : State Req Op Res ε ρ σ} (h : Reachable S st) (hs : Step S st st') :
      Reachable S st'

variable {S : System Req Op Res ε ρ σ} {st st' : State Req Op Res ε ρ σ} {k : Req}

/-- The worker goes on alone. -/
theorem run_exec {s : σ} {q : List Req} {x : ρ} {p : Prog Op Res (Except ε Unit)}
    (h : Reachable S ⟨s, q, some ⟨k, x, p⟩⟩) {es : List (Made Op Res)} {r : Except ε Unit}
    {xs : ρ × σ} (he : Exec S.call p (x, s) es r xs) :
    Reachable S ⟨xs.2, q, some ⟨k, xs.1, .ret r⟩⟩ := by
  generalize hxs : (x, s) = ys at he
  induction he generalizing x s with
  | ret a ys =>
      subst hxs
      exact h
  | @call op next ys ys' ys'' r es a hcall _ ih =>
      subst hxs
      exact ih (h.step (.call s ys'.2 q k x ys'.1 op next r hcall)) rfl

/-! ## 2. What a program knows -/

/-- Knowledge: of what the run remembers, of the world and of the queue. -/
abbrev Know (Req ρ σ : Type) := ρ → σ → List Req → Prop

/-- `K` survives what the others do. -/
def Stable (S : System Req Op Res ε ρ σ) (K : Know Req ρ σ) : Prop :=
  ∀ x s q reqs s', S.others s reqs s' → K x s q → K x s' (q ++ reqs)

/-- **The program keeps `G` and ends in `Q`**: from what it knows, its next call does what `G` says, and
    the rest goes on from something it knows then. -/
def Keeps (S : System Req Op Res ε ρ σ)
    (G : (op : Op) → ρ × σ → Res op → ρ × σ → Prop) (Q : Except ε Unit → Know Req ρ σ) :
    Know Req ρ σ → Prog Op Res (Except ε Unit) → Prop
  | K, .ret a => ∀ x s q, K x s q → Q a x s q
  | K, .call op next => ∀ x s q r x' s', K x s q → S.call op (x, s) r (x', s') →
      G op (x, s) r (x', s') ∧ ∃ K' : Know Req ρ σ, Stable S K' ∧ K' x' s' q ∧
        Keeps S G Q K' (next r)

omit [DecidableEq Req] in
/-- A program that keeps its promise from what it knows does so from more. -/
theorem Keeps.mono {G : (op : Op) → ρ × σ → Res op → ρ × σ → Prop} {Q : Except ε Unit → Know Req ρ σ}
    {K K' : Know Req ρ σ} {p : Prog Op Res (Except ε Unit)} (h : Keeps S G Q K p)
    (hK : ∀ x s q, K' x s q → K x s q) : Keeps S G Q K' p := by
  cases p with
  | ret a => exact fun x s q hk => h x s q (hK x s q hk)
  | call op next => exact fun x s q r x' s' hk hcall => h x s q r x' s' (hK x s q hk) hcall

/-- Nothing has been remembered yet. -/
def Fresh (S : System Req Op Res ε ρ σ) : Know Req ρ σ := fun x _ _ => x = S.fresh

section Rules

variable {G : Req → (op : Op) → ρ × σ → Res op → ρ × σ → Prop}
  {Q : Req → Except ε Unit → Know Req ρ σ}

/-- **What the worker knows**, in every state that is reached. -/
theorem run_keeps (hrec : ∀ k, Keeps S (G k) (Q k) (Fresh S) (S.reconcile k))
    (h : Reachable S st) (wk : Worker Req Op Res ε ρ) (hw : st.worker = some wk) :
    ∃ K : Know Req ρ σ, Stable S K ∧ K wk.mem st.store st.queue ∧
      Keeps S (G wk.req) (Q wk.req) K wk.rest := by
  induction h generalizing wk with
  | boot => cases hw
  | step _ hs ih =>
      cases hs with
      | others s s' q reqs w hother =>
          obtain ⟨K, hstable, hk, hkeeps⟩ := ih wk hw
          exact ⟨K, hstable, hstable _ _ _ _ _ hother hk, hkeeps⟩
      | restart => cases hw
      | start s q k hk =>
          cases hw
          exact ⟨Fresh S, fun _ _ _ _ _ _ h => h, rfl, hrec k⟩
      | call s s' q k x x' op next r hcall =>
          cases hw
          obtain ⟨K, _, hk, hkeeps⟩ := ih _ rfl
          exact (hkeeps x s q r x' s' hk hcall).2
      | done => cases hw
      | retry => cases hw

/-- **Every call does what its program guarantees.** -/
theorem call_guar (hrec : ∀ k, Keeps S (G k) (Q k) (Fresh S) (S.reconcile k)) {s s' : σ}
    {q : List Req} {x x' : ρ} {op : Op} {next : Res op → Prog Op Res (Except ε Unit)} {r : Res op}
    (h : Reachable S ⟨s, q, some ⟨k, x, .call op next⟩⟩) (hcall : S.call op (x, s) r (x', s')) :
    G k op (x, s) r (x', s') := by
  obtain ⟨K, _, hk, hkeeps⟩ := run_keeps hrec h _ rfl
  exact (hkeeps x s q r x' s' hk hcall).1

end Rules

/-! ## 3. Nothing left to do -/

/-- **`Clean` says of a request that it has nothing left to do**, or is queued: no step changes that but
    its removal from the queue, and the program establishes it when it succeeds. -/
structure Tracks (S : System Req Op Res ε ρ σ) (Clean : Req → σ → List Req → Prop) : Prop where
  restart : ∀ k s reqs s', S.restart s reqs s' → Clean k s' reqs
  others : ∀ k s q reqs s', S.others s reqs s' → Clean k s q → Clean k s' (q ++ reqs)
  call : ∀ k op x s r x' s' q, S.call op (x, s) r (x', s') → Clean k s q → Clean k s' q
  removed : ∀ k k' s q, k ≠ k' → Clean k s q → Clean k s (q.filter (· ≠ k'))
  queued : ∀ k s q, Clean k s (k :: q)
  more : ∀ k k' s q, Clean k s q → Clean k s (k' :: q)
  reconcile : ∀ k, Keeps S (fun _ _ _ _ => True) (fun r _ s q => r = .ok () → Clean k s q) (Fresh S)
    (S.reconcile k)

/-- **A request that is not worked on is clean**, in every state that is reached. -/
theorem run_clean {Clean : Req → σ → List Req → Prop} (ht : Tracks S Clean) (h : Reachable S st)
    (hk : ∀ wk, st.worker = some wk → wk.req ≠ k) : Clean k st.store st.queue := by
  induction h with
  | boot hboot => exact ht.restart k _ _ _ hboot
  | step h hs ih =>
      cases hs with
      | others s s' q reqs w hother => exact ht.others k _ _ _ _ hother (ih hk)
      | restart s s' q reqs w hrestart => exact ht.restart k _ _ _ hrestart
      | start s q k' hk' =>
          have hne : k ≠ k' := fun heq => hk _ rfl heq.symm
          exact ht.removed k k' s q hne (ih fun _ hw => (nomatch hw))
      | call s s' q k' x x' op next r hcall =>
          have hne : k' ≠ k := hk _ rfl
          refine ht.call k op x s r x' s' q hcall (ih fun wk hw => ?_)
          cases hw
          exact hne
      | done s q k' x =>
          by_cases heq : k' = k
          · subst heq
            obtain ⟨K, _, hknow, hkeeps⟩ := run_keeps ht.reconcile h _ rfl
            exact hkeeps x s q hknow rfl
          · refine ih fun wk hw => ?_
            cases hw
            exact heq
      | retry s q k' x e =>
          by_cases heq : k' = k
          · subst heq
            exact ht.queued k' s q
          · refine ht.more k k' s q (ih fun wk hw => ?_)
            cases hw
            exact heq

end ControlLoop
