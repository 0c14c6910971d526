/-
  File:      BlogDemo/Lib/TokenBucket.lean
  Subject:   A TOKEN BUCKET: so many tokens at most, so many more at every fill, one for every request; a
             request that finds none is refused.

  Times are natural numbers; a fill is due at every multiple of the interval.

  * `request`, `serve` -- one request, and the requests of a run one after the other;
  * `iterate_fill` -- fills that are due together;
  * **`window_le`** -- of any stretch of requests no more are served than the bucket holds and the fills
    in between add;
  * **`serve_all_iff`** -- and nothing is refused exactly when no stretch has more.
-/
import Mathlib.Algebra.Order.Group.Nat
import Mathlib.Data.List.Infix
import Mathlib.Logic.Function.Iterate

namespace TokenBucket

structure Config where
  maxTokens : ℕ
  tokensPerFill : ℕ
  fillInterval : ℕ

/-- The fills so far, and the tokens left. -/
structure Bucket where
  fills : ℕ
  tokens : ℕ

section Bucket

variable (c : Config)

/-- The bucket is full at the start. -/
def Config.start : Bucket := ⟨0, c.maxTokens⟩

def Config.fill (tokens : ℕ) : ℕ := Nat.min (tokens + c.tokensPerFill) c.maxTokens

/-- The fills due until a time. -/
def Config.due (time : ℕ) : ℕ := time / c.fillInterval

def Config.advance (b : Bucket) (time : ℕ) : Bucket where
  fills := c.due time
  tokens := c.fill^[c.due time - b.fills] b.tokens

/-- Whether the request is served, and the bucket afterwards. -/
def Config.request (b : Bucket) (time : ℕ) : Bool × Bucket :=
  let b := c.advance b time
  if 0 < b.tokens then (true, { b with tokens := b.tokens - 1 }) else (false, b)

/-- **The answers** to requests, in their order. -/
def Config.serve : Bucket → List ℕ → List Bool
  | _, [] => []
  | b, time :: times => (c.request b time).1 :: Config.serve (c.request b time).2 times

/-- The bucket after requests. -/
def Config.after : Bucket → List ℕ → Bucket
  | b, [] => b
  | b, time :: times => Config.after (c.request b time).2 times

end Bucket

variable {c : Config} {b : Bucket} {time : ℕ}

/-! ## 1. One request -/

/-- **Fills that are due together** add up, as far as there is room. -/
theorem iterate_fill (k : ℕ) {tokens : ℕ} (h : tokens ≤ c.maxTokens) :
    c.fill^[k] tokens = Nat.min (tokens + c.tokensPerFill * k) c.maxTokens := by
  induction k with
  | zero => exact (Nat.min_eq_left h).symm
  | succ k ih =>
      rw [Function.iterate_succ_apply', ih, Config.fill, Nat.mul_succ]
      show min (min _ _ + _) _ = min _ _
      omega

/-- There is no more in the bucket than it holds. -/
def Bounded (c : Config) (b : Bucket) : Prop := b.tokens ≤ c.maxTokens

theorem advance_tokens (h : Bounded c b) (time : ℕ) : (c.advance b time).tokens =
    Nat.min (b.tokens + c.tokensPerFill * (c.due time - b.fills)) c.maxTokens := iterate_fill _ h

theorem advance_bounded (h : Bounded c b) (time : ℕ) : Bounded c (c.advance b time) := by
  rw [Bounded, advance_tokens h]
  exact Nat.min_le_right _ _

theorem request_fills (b : Bucket) (time : ℕ) : (c.request b time).2.fills = c.due time := by
  rw [Config.request]
  split <;> rfl

/-- A request takes a token, if there is one. -/
theorem request_tokens (b : Bucket) (time : ℕ) :
    (c.request b time).2.tokens + (c.request b time).1.toNat = (c.advance b time).tokens := by
  rw [Config.request]
  split
  · rename_i hpos
    exact Nat.sub_add_cancel hpos
  · rfl

theorem request_served (b : Bucket) (time : ℕ) :
    (c.request b time).1 = true ↔ 0 < (c.advance b time).tokens := by
  rw [Config.request]
  split
  · rename_i hpos
    exact iff_of_true rfl hpos
  · rename_i hpos
    exact iff_of_false Bool.false_ne_true hpos

theorem request_bounded (h : Bounded c b) (time : ℕ) : Bounded c (c.request b time).2 := by
  have htokens := request_tokens (c := c) b time
  have hbounded : (c.advance b time).tokens ≤ c.maxTokens := advance_bounded h time
  show (c.request b time).2.tokens ≤ c.maxTokens
  omega

theorem start_bounded : Bounded c c.start := le_refl c.maxTokens

/-! ## 2. Requests one after the other -/

theorem serve_append (b : Bucket) (xs ys : List ℕ) :
    c.serve b (xs ++ ys) = c.serve b xs ++ c.serve (c.after b xs) ys := by
  induction xs generalizing b with
  | nil => rfl
  | cons x xs ih => rw [List.cons_append, Config.serve, Config.serve, Config.after, ih, List.cons_append]

theorem serve_length (b : Bucket) (xs : List ℕ) : (c.serve b xs).length = xs.length := by
  induction xs generalizing b with
  | nil => rfl
  | cons x xs ih => rw [Config.serve, List.length_cons, ih, List.length_cons]

theorem after_append (b : Bucket) (xs ys : List ℕ) :
    c.after b (xs ++ ys) = c.after (c.after b xs) ys := by
  induction xs generalizing b with
  | nil => rfl
  | cons x xs ih => exact ih _

theorem after_bounded (h : Bounded c b) (xs : List ℕ) : Bounded c (c.after b xs) := by
  induction xs generalizing b with
  | nil => exact h
  | cons x xs ih => exact ih (request_bounded h x)

/-- How many are served. -/
def served (answers : List Bool) : ℕ := answers.count true

theorem served_cons (b : Bucket) (x : ℕ) (xs : List ℕ) : served (c.serve b (x :: xs)) =
    served (c.serve (c.request b x).2 xs) + (c.request b x).1.toNat := by
  rw [served, Config.serve, List.count_cons]
  cases (c.request b x).1 <;> rfl

/-- What is served comes out of the tokens that are left and those of the fills until the end. -/
theorem served_le (h : Bounded c b) {xs : List ℕ} {last : ℕ} (hsorted : xs.Pairwise (· ≤ ·))
    (hfills : ∀ x ∈ xs, b.fills ≤ c.due x) (hlast : ∀ x ∈ xs, x ≤ last) (hb : b.fills ≤ c.due last) :
    served (c.serve b xs) ≤ b.tokens + c.tokensPerFill * (c.due last - b.fills) := by
  induction xs generalizing b with
  | nil => exact Nat.zero_le _
  | cons x xs ih =>
      obtain ⟨hx, hxs⟩ := List.pairwise_cons.mp hsorted
      have hdue : c.due x ≤ c.due last := Nat.div_le_div_right (hlast x List.mem_cons_self)
      have hrest := ih (request_bounded h x) hxs
        (fun y hy => by rw [request_fills]; exact Nat.div_le_div_right (hx y hy))
        (fun y hy => hlast y (List.mem_cons_of_mem x hy)) (by rw [request_fills]; exact hdue)
      rw [request_fills] at hrest
      have htokens := request_tokens (c := c) b x
      have hadvance : (c.advance b x).tokens ≤ b.tokens + c.tokensPerFill * (c.due x - b.fills) := by
        rw [advance_tokens h]
        exact Nat.min_le_left _ _
      have hsplit : c.tokensPerFill * (c.due last - b.fills) =
          c.tokensPerFill * (c.due x - b.fills) + c.tokensPerFill * (c.due last - c.due x) := by
        rw [← Nat.mul_add]
        congr 1
        have hfill := hfills x List.mem_cons_self
        omega
      rw [served_cons]
      omega

/-- **Of any stretch of requests** no more are served than the bucket holds and the fills in between
    add. -/
theorem window_le (h : Bounded c b) {first last : ℕ} {seg : List ℕ}
    (hsorted : (first :: seg).Pairwise (· ≤ ·)) (hlast : ∀ x ∈ first :: seg, x ≤ last) :
    served (c.serve b (first :: seg)) ≤
      c.maxTokens + c.tokensPerFill * (c.due last - c.due first) := by
  obtain ⟨hfirst, hseg⟩ := List.pairwise_cons.mp hsorted
  have hrest := served_le (request_bounded h first) hseg
    (fun x hx => by rw [request_fills]; exact Nat.div_le_div_right (hfirst x hx))
    (fun x hx => hlast x (List.mem_cons_of_mem first hx))
    (by rw [request_fills]; exact Nat.div_le_div_right (hlast first List.mem_cons_self))
  rw [request_fills] at hrest
  have htokens := request_tokens (c := c) b first
  have hbounded : (c.advance b first).tokens ≤ c.maxTokens := advance_bounded h first
  rw [served_cons]
  omega

/-! ## 3. When nothing is refused -/

/-- **No stretch of the requests** has more than the bucket holds and the fills in between add. -/
def Conforms (c : Config) (times : List ℕ) : Prop :=
  ∀ first seg, first :: seg <:+: times →
    seg.length + 1 ≤ c.maxTokens + c.tokensPerFill * (c.due (seg.getLastD first) - c.due first)

/-- The bucket is full, or what is missing was taken since it was full by the requests from `first`
    on. -/
inductive Account (c : Config) (b : Bucket) : List ℕ → Prop where
  | full (htokens : b.tokens = c.maxTokens) : Account c b []
  | since {times : List ℕ} (first : ℕ) (seg : List ℕ) (hsuffix : first :: seg <:+ times)
      (hfills : b.fills = c.due (seg.getLastD first))
      (htokens : b.tokens + (seg.length + 1) =
        c.maxTokens + c.tokensPerFill * (c.due (seg.getLastD first) - c.due first)) :
      Account c b times

/-- A request that finds the bucket full. -/
theorem account_full {times : List ℕ} (hpos : 0 < c.maxTokens)
    (hfull : (c.advance b time).tokens = c.maxTokens) :
    (c.request b time).1 = true ∧ Account c (c.request b time).2 (times ++ [time]) := by
  have hserved : (c.request b time).1 = true := (request_served b time).mpr (hfull ▸ hpos)
  have htokens := request_tokens (c := c) b time
  rw [hserved, hfull] at htokens
  refine ⟨hserved, .since time [] (List.suffix_append times [time]) (request_fills b time) ?_⟩
  simpa using htokens

theorem account_step {times : List ℕ} (hb : Bounded c b) (h : Account c b times)
    (hsorted : (times ++ [time]).Pairwise (· ≤ ·)) (hconforms : Conforms c (times ++ [time])) :
    (c.request b time).1 = true ∧ Account c (c.request b time).2 (times ++ [time]) := by
  have hpos : 0 < c.maxTokens := by
    have hone := hconforms time [] (List.suffix_append times [time]).isInfix
    simpa [Nat.one_le_iff_ne_zero, Nat.pos_iff_ne_zero] using hone
  have hadvance := advance_tokens hb time
  cases h with
  | full htokens =>
      refine account_full hpos ?_
      rw [hadvance, htokens]
      exact Nat.min_eq_right (Nat.le_add_right _ _)
  | since first seg hsuffix hfills htokens =>
      by_cases hroom : b.tokens + c.tokensPerFill * (c.due time - b.fills) < c.maxTokens
      · -- no fill was lost, and the account goes on
        obtain ⟨pre, rfl⟩ := hsuffix
        have hall : (first :: seg ++ [time]).Pairwise (· ≤ ·) := by
          rw [List.append_assoc] at hsorted
          exact (List.pairwise_append.mp hsorted).2.1
        obtain ⟨hseg, _, htime⟩ := List.pairwise_append.mp hall
        have hmem : seg.getLastD first ∈ first :: seg := List.getLastD_mem_cons
        have hfirst : c.due first ≤ c.due (seg.getLastD first) := by
          refine Nat.div_le_div_right ?_
          rcases List.mem_cons.mp hmem with heq | hmem
          · exact heq.ge
          · exact (List.pairwise_cons.mp hseg).1 _ hmem
        have hlast : c.due (seg.getLastD first) ≤ c.due time :=
          Nat.div_le_div_right (htime _ hmem time List.mem_cons_self)
        have hroomy := hconforms first (seg ++ [time]) ⟨pre, [], by simp⟩
        rw [List.getLastD_concat, List.length_append, List.length_singleton] at hroomy
        have hsplit : c.tokensPerFill * (c.due time - c.due first) =
            c.tokensPerFill * (c.due (seg.getLastD first) - c.due first) +
              c.tokensPerFill * (c.due time - c.due (seg.getLastD first)) := by
          rw [← Nat.mul_add]
          congr 1
          omega
        rw [hfills] at hroom hadvance
        have htaken : (c.advance b time).tokens =
            b.tokens + c.tokensPerFill * (c.due time - c.due (seg.getLastD first)) := by
          rw [hadvance]
          exact Nat.min_eq_left (Nat.le_of_lt hroom)
        have hserved : (c.request b time).1 = true := by
          rw [request_served]
          omega
        have hleft := request_tokens (c := c) b time
        rw [hserved, Bool.toNat_true] at hleft
        refine ⟨hserved, .since first (seg ++ [time]) ⟨pre, by simp⟩ ?_ ?_⟩
        · rw [request_fills, List.getLastD_concat]
        · rw [List.getLastD_concat, List.length_append, List.length_singleton]
          omega
      · refine account_full hpos ?_
        rw [hadvance]
        exact Nat.min_eq_right (Nat.le_of_not_lt hroom)

/-- The last of requests in their order. -/
theorem le_last {first : ℕ} {seg : List ℕ} (h : (first :: seg).Pairwise (· ≤ ·)) :
    ∀ x ∈ first :: seg, x ≤ seg.getLastD first := by
  induction seg generalizing first with
  | nil => exact fun x hx => (List.mem_singleton.mp hx).le
  | cons y seg ih =>
      obtain ⟨hfirst, hseg⟩ := List.pairwise_cons.mp h
      intro x hx
      rw [List.getLastD_cons]
      rcases List.mem_cons.mp hx with rfl | hx
      · exact (hfirst y List.mem_cons_self).trans (ih hseg y List.mem_cons_self)
      · exact ih hseg x hx

theorem conforms_left {xs ys : List ℕ} (h : Conforms c (xs ++ ys)) : Conforms c xs :=
  fun first seg hseg => h first seg (hseg.trans (List.prefix_append xs ys).isInfix)

theorem serve_all {times : List ℕ} (hsorted : times.Pairwise (· ≤ ·)) (h : Conforms c times) :
    (∀ answer ∈ c.serve c.start times, answer = true) ∧ Account c (c.after c.start times) times := by
  induction times using List.reverseRecOn with
  | nil => exact ⟨nofun, .full rfl⟩
  | append_singleton times time ih =>
      obtain ⟨hall, haccount⟩ := ih (List.pairwise_append.mp hsorted).1 (conforms_left h)
      obtain ⟨hserved, hnext⟩ :=
        account_step (after_bounded start_bounded times) haccount hsorted h
      rw [serve_append, after_append]
      refine ⟨?_, hnext⟩
      intro answer hanswer
      rcases List.mem_append.mp hanswer with hanswer | hanswer
      · exact hall answer hanswer
      · rw [List.mem_singleton.mp hanswer]
        exact hserved

/-- **Nothing is refused exactly when the requests conform.** -/
theorem serve_all_iff {times : List ℕ} (hsorted : times.Pairwise (· ≤ ·)) :
    (∀ answer ∈ c.serve c.start times, answer = true) ↔ Conforms c times := by
  constructor
  · intro hall first seg hinfix
    obtain ⟨pre, post, rfl⟩ := hinfix
    have hseg : (first :: seg).Pairwise (· ≤ ·) :=
      (List.pairwise_append.mp (List.pairwise_append.mp hsorted).1).2.1
    have hbounded : Bounded c (c.after c.start pre) := after_bounded start_bounded pre
    have hwindow := window_le hbounded hseg (le_last hseg)
    rw [serve_append, serve_append] at hall
    have hcount : served (c.serve (c.after c.start pre) (first :: seg)) = seg.length + 1 := by
      have hserve := serve_length (c := c) (c.after c.start pre) (first :: seg)
      rw [served, List.count_eq_length.mpr, hserve, List.length_cons]
      intro answer hanswer
      exact (hall answer (List.mem_append_left _ (List.mem_append_right _ hanswer))).symm
    omega
  · exact fun h => (serve_all hsorted h).1

end TokenBucket
