/-
  File:      BlogDemo/Lib/Queue.lean
  Subject:   A QUEUE THAT DELIVERS AT LEAST ONCE, and the consumers that poll it: a message that is received
             is out of sight for a while, and comes back unless it is deleted in that time.

  A batch is received one message after the other. Consumers handle what they have in any order, may
  stop at any point, and their call that deletes may fail. `sent`, `done` and `expired` are ghost state:
  no step reads them but for the number of a new message.

  * `step`, `Step`, `step_cases` -- what happens to the queue and to the consumers;
  * **`accounted`** -- in every run: a message is on the queue, or was handled without an error, or its
    time on the queue is over;
  * **`once`** -- in every run in which what is received is finished before it comes back: nothing is
    handled twice without an error.
-/
import BlogDemo.Lib.Runs
import Mathlib.Data.List.Nodup

namespace Queue

open Runs

/-! ## 1. The queue and its consumers -/

/-- A message on the queue. -/
structure Entry (μ : Type) where
  id : Nat
  message : μ
  visibleAt : Nat
  /-- How often it was received. -/
  receives : Nat

/-- A message in a consumer's hand: the id and how often it had been received, and the time at which
    the queue shows it again. -/
structure Copy (μ : Type) where
  receipt : Nat × Nat
  message : μ
  deadline : Nat

structure State (μ L : Type) where
  now : Nat
  entries : List (Entry μ)
  inHand : List (Copy μ)
  /-- Handled, and to be deleted. -/
  toDelete : List (Copy μ)
  log : List L
  sent : List μ
  done : List (Copy μ)
  expired : List Nat

def State.start (μ L : Type) : State μ L := ⟨0, [], [], [], [], [], [], []⟩

/-- What consumers do with a message that was received so often: the lines of the log, and whether it
    ended without an error. -/
structure Consumer (μ L : Type) where
  visibilityTimeout : Nat
  handle : μ → Nat → List L × Bool

inductive Action (μ : Type) where
  | send (message : μ) (delay : Nat)
  | tick (n : Nat)
  /-- `again`: a queue may show a message that is out of sight. -/
  | receive (id : Nat) (again : Bool)
  | handle (receipt : Nat × Nat)
  | delete (receipt : Nat × Nat)
  /-- A consumer stops before it has handled what it has, or before it has deleted it. -/
  | lose (receipt : Nat × Nat)
  | loseHandled (receipt : Nat × Nat)
  | expire (id : Nat)

section Steps

variable {μ L : Type}

def State.send (s : State μ L) (message : μ) (delay : Nat) : State μ L :=
  { s with
    entries := s.entries ++ [⟨s.sent.length, message, s.now + delay, 0⟩]
    sent := s.sent ++ [message] }

/-- The entry as it is received at a time. -/
def Entry.received (e : Entry μ) (visibleAt : Nat) : Entry μ :=
  { e with visibleAt := visibleAt, receives := e.receives + 1 }

def State.receive (s : State μ L) (timeout : Nat) (e : Entry μ) : State μ L :=
  { s with
    entries := s.entries.map fun x => if x.id = e.id then x.received (s.now + timeout) else x
    inHand := ⟨(e.id, e.receives + 1), e.message, s.now + timeout⟩ :: s.inHand }

/-- A copy leaves the list. -/
def drop (r : Nat × Nat) (cs : List (Copy μ)) : List (Copy μ) := cs.filter fun c => c.receipt != r

def State.handle (s : State μ L) (k : Consumer μ L) (c : Copy μ) : State μ L :=
  let out := k.handle c.message c.receipt.2
  { s with
    inHand := drop c.receipt s.inHand
    toDelete := if out.2 then c :: s.toDelete else s.toDelete
    log := s.log ++ out.1
    done := if out.2 then c :: s.done else s.done }

/-- A message is deleted by the receipt of the last time it was received. -/
def State.delete (s : State μ L) (r : Nat × Nat) : State μ L :=
  { s with
    entries := s.entries.filter fun e => (e.id, e.receives) != r
    toDelete := drop r s.toDelete }

def State.expire (s : State μ L) (id : Nat) : State μ L :=
  { s with
    entries := s.entries.filter fun e => e.id != id
    expired := id :: s.expired }

def step (k : Consumer μ L) (s : State μ L) : Action μ → Option (State μ L)
  | .send message delay => some (s.send message delay)
  | .tick n => some { s with now := s.now + n }
  | .receive id again =>
    match s.entries.find? fun e => e.id == id with
    | some e =>
      if again || e.visibleAt ≤ s.now then some (s.receive k.visibilityTimeout e) else none
    | none => none
  | .handle r => (s.inHand.find? fun c => c.receipt == r).map (s.handle k)
  | .delete r => (s.toDelete.find? fun c => c.receipt == r).map fun c => s.delete c.receipt
  | .lose r => some { s with inHand := drop r s.inHand }
  | .loseHandled r => some { s with toDelete := drop r s.toDelete }
  | .expire id => some (s.expire id)

/-- What a step can do. -/
inductive Step (k : Consumer μ L) (s : State μ L) : Action μ → State μ L → Prop where
  | send (message : μ) (delay : Nat) : Step k s (.send message delay) (s.send message delay)
  | tick (n : Nat) : Step k s (.tick n) { s with now := s.now + n }
  | receive (e : Entry μ) (again : Bool) (he : e ∈ s.entries)
      (hvisible : again = true ∨ e.visibleAt ≤ s.now) :
      Step k s (.receive e.id again) (s.receive k.visibilityTimeout e)
  | handle (c : Copy μ) (hc : c ∈ s.inHand) : Step k s (.handle c.receipt) (s.handle k c)
  | delete (c : Copy μ) (hc : c ∈ s.toDelete) : Step k s (.delete c.receipt) (s.delete c.receipt)
  | lose (r : Nat × Nat) : Step k s (.lose r) { s with inHand := drop r s.inHand }
  | loseHandled (r : Nat × Nat) :
      Step k s (.loseHandled r) { s with toDelete := drop r s.toDelete }
  | expire (id : Nat) : Step k s (.expire id) (s.expire id)

variable {k : Consumer μ L} {s s' : State μ L} {a : Action μ}

theorem step_cases (h : step k s a = some s') : Step k s a s' := by
  cases a with
  | send message delay =>
      cases h
      exact .send message delay
  | tick n =>
      cases h
      exact .tick n
  | receive id again =>
      rw [step] at h
      split at h
      · rename_i e hfind
        have hid := List.find?_some hfind
        obtain rfl : e.id = id := beq_iff_eq.mp hid
        split at h
        · rename_i hvisible
          cases h
          refine .receive e again (List.mem_of_find?_eq_some hfind) ?_
          simpa using hvisible
        · cases h
      · cases h
  | handle r =>
      obtain ⟨c, hfind, rfl⟩ := Option.map_eq_some_iff.mp h
      have hreceipt := List.find?_some hfind
      obtain rfl : c.receipt = r := beq_iff_eq.mp hreceipt
      exact .handle c (List.mem_of_find?_eq_some hfind)
  | delete r =>
      obtain ⟨c, hfind, rfl⟩ := Option.map_eq_some_iff.mp h
      have hreceipt := List.find?_some hfind
      obtain rfl : c.receipt = r := beq_iff_eq.mp hreceipt
      exact .delete c (List.mem_of_find?_eq_some hfind)
  | lose r =>
      cases h
      exact .lose r
  | loseHandled r =>
      cases h
      exact .loseHandled r
  | expire id =>
      cases h
      exact .expire id

theorem mem_drop {r : Nat × Nat} {cs : List (Copy μ)} {c : Copy μ} :
    c ∈ drop r cs ↔ c ∈ cs ∧ c.receipt ≠ r := by
  simp [drop, List.mem_filter]

theorem handle_ok (s : State μ L) {c : Copy μ} (h : (k.handle c.message c.receipt.2).2 = true) :
    (s.handle k c).toDelete = c :: s.toDelete ∧ (s.handle k c).done = c :: s.done :=
  ⟨if_pos h, if_pos h⟩

theorem handle_error (s : State μ L) {c : Copy μ}
    (h : (k.handle c.message c.receipt.2).2 ≠ true) :
    (s.handle k c).toDelete = s.toDelete ∧ (s.handle k c).done = s.done := ⟨if_neg h, if_neg h⟩

/-! ## 2. At least once -/

/-- The message of the number. -/
def Sent (s : State μ L) (id : Nat) (message : μ) : Prop := s.sent[id]? = some message

/-- **What becomes of messages.** -/
structure Account (k : Consumer μ L) (s : State μ L) : Prop where
  entries : ∀ e ∈ s.entries, Sent s e.id e.message
  inHand : ∀ c ∈ s.inHand, Sent s c.receipt.1 c.message
  toDelete : ∀ c ∈ s.toDelete, c ∈ s.done
  done : ∀ c ∈ s.done, Sent s c.receipt.1 c.message ∧ (k.handle c.message c.receipt.2).2 = true ∧
    ∀ l ∈ (k.handle c.message c.receipt.2).1, l ∈ s.log
  log : ∀ l ∈ s.log, ∃ m ∈ s.sent, ∃ n, l ∈ (k.handle m n).1
  kept : ∀ id < s.sent.length, (∃ e ∈ s.entries, e.id = id) ∨ (∃ c ∈ s.done, c.receipt.1 = id) ∨
    id ∈ s.expired

theorem sent_send {id : Nat} {m message : μ} {delay : Nat} (h : Sent s id m) :
    Sent (s.send message delay) id m := by
  have hlt : id < s.sent.length := (List.getElem?_eq_some_iff.mp h).1
  show (s.sent ++ [message])[id]? = some m
  rw [List.getElem?_append_left hlt]
  exact h

theorem account_send (h : Account k s) (message : μ) (delay : Nat) :
    Account k (s.send message delay) where
  entries e he := by
    rcases List.mem_append.mp he with he | he
    · exact sent_send (h.entries e he)
    · obtain rfl := List.mem_singleton.mp he
      exact List.getElem?_concat_length
  inHand c hc := sent_send (h.inHand c hc)
  toDelete c hc := h.toDelete c hc
  done c hc := ⟨sent_send (h.done c hc).1, (h.done c hc).2⟩
  log l hl := by
    obtain ⟨m, hm, n, hn⟩ := h.log l hl
    exact ⟨m, List.mem_append_left _ hm, n, hn⟩
  kept id hid := by
    rcases Nat.lt_or_ge id s.sent.length with hlt | hge
    · rcases h.kept id hlt with ⟨e, he, heq⟩ | hrest
      · exact Or.inl ⟨e, List.mem_append_left _ he, heq⟩
      · exact Or.inr hrest
    · have hlength : (s.send message delay).sent.length = s.sent.length + 1 := by
        simp [State.send]
      have heq : s.sent.length = id := by omega
      exact Or.inl ⟨_, List.mem_append_right _ List.mem_cons_self, heq⟩

theorem account_receive (h : Account k s) {e : Entry μ} (he : e ∈ s.entries) (timeout : Nat) :
    Account k (s.receive timeout e) where
  entries x hx := by
    obtain ⟨y, hy, rfl⟩ := List.mem_map.mp hx
    have hsent : Sent s y.id y.message := h.entries y hy
    split
    · exact hsent
    · exact hsent
  inHand c hc := by
    rcases List.mem_cons.mp hc with rfl | hc
    · exact h.entries e he
    · exact h.inHand c hc
  toDelete c hc := h.toDelete c hc
  done c hc := h.done c hc
  log l hl := h.log l hl
  kept id hid := by
    rcases h.kept id hid with ⟨y, hy, rfl⟩ | hrest
    · refine Or.inl ⟨_, List.mem_map_of_mem hy, ?_⟩
      split <;> rfl
    · exact Or.inr hrest

theorem account_handle (h : Account k s) {c : Copy μ} (hc : c ∈ s.inHand) :
    Account k (s.handle k c) where
  entries e he := h.entries e he
  inHand x hx := h.inHand x (mem_drop.mp hx).1
  toDelete x hx := by
    by_cases hok : (k.handle c.message c.receipt.2).2 = true
    · obtain ⟨hdelete, hdone⟩ := handle_ok s hok
      rw [hdelete] at hx
      rw [hdone]
      rcases List.mem_cons.mp hx with rfl | hx
      · exact List.mem_cons_self
      · exact List.mem_cons_of_mem c (h.toDelete x hx)
    · obtain ⟨hdelete, hdone⟩ := handle_error s hok
      rw [hdelete] at hx
      rw [hdone]
      exact h.toDelete x hx
  done x hx := by
    have hold : ∀ x ∈ s.done, Sent (s.handle k c) x.receipt.1 x.message ∧
        (k.handle x.message x.receipt.2).2 = true ∧
          ∀ l ∈ (k.handle x.message x.receipt.2).1, l ∈ (s.handle k c).log := by
      intro x hx
      obtain ⟨hsent, hok, hlog⟩ := h.done x hx
      exact ⟨hsent, hok, fun l hl => List.mem_append_left _ (hlog l hl)⟩
    by_cases hok : (k.handle c.message c.receipt.2).2 = true
    · rw [(handle_ok s hok).2] at hx
      rcases List.mem_cons.mp hx with rfl | hx
      · exact ⟨h.inHand x hc, hok, fun l hl => List.mem_append_right _ hl⟩
      · exact hold x hx
    · rw [(handle_error s hok).2] at hx
      exact hold x hx
  log l hl := by
    rcases List.mem_append.mp hl with hl | hl
    · exact h.log l hl
    · have hsent : s.sent[c.receipt.1]? = some c.message := h.inHand c hc
      exact ⟨c.message, List.mem_of_getElem? hsent, c.receipt.2, hl⟩
  kept id hid := by
    rcases h.kept id hid with hentry | ⟨x, hx, heq⟩ | hexpired
    · exact Or.inl hentry
    · refine Or.inr (Or.inl ⟨x, ?_, heq⟩)
      show x ∈ if _ then c :: s.done else s.done
      split
      · exact List.mem_cons_of_mem c hx
      · exact hx
    · exact Or.inr (Or.inr hexpired)

theorem account_delete (h : Account k s) {c : Copy μ} (hc : c ∈ s.toDelete) :
    Account k (s.delete c.receipt) where
  entries e he := h.entries e (List.mem_filter.mp he).1
  inHand x hx := h.inHand x hx
  toDelete x hx := h.toDelete x (mem_drop.mp hx).1
  done x hx := h.done x hx
  log l hl := h.log l hl
  kept id hid := by
    rcases h.kept id hid with ⟨e, he, rfl⟩ | hrest
    · by_cases hr : (e.id, e.receives) = c.receipt
      · -- what is deleted was handled
        exact Or.inr (Or.inl ⟨c, h.toDelete c hc, by rw [← hr]⟩)
      · exact Or.inl ⟨e, List.mem_filter.mpr ⟨he, bne_iff_ne.mpr hr⟩, rfl⟩
    · exact Or.inr hrest

theorem account_expire (h : Account k s) (id : Nat) : Account k (s.expire id) where
  entries e he := h.entries e (List.mem_filter.mp he).1
  inHand x hx := h.inHand x hx
  toDelete x hx := h.toDelete x hx
  done x hx := h.done x hx
  log l hl := h.log l hl
  kept id' hid := by
    rcases h.kept id' hid with ⟨e, he, rfl⟩ | hdone | hexpired
    · by_cases heq : e.id = id
      · exact Or.inr (Or.inr (heq ▸ List.mem_cons_self))
      · exact Or.inl ⟨e, List.mem_filter.mpr ⟨he, bne_iff_ne.mpr heq⟩, rfl⟩
    · exact Or.inr (Or.inl hdone)
    · exact Or.inr (Or.inr (List.mem_cons_of_mem id hexpired))

/-- What one step keeps. -/
theorem account_step (h : Account k s) (hstep : Step k s a s') : Account k s' := by
  cases hstep with
  | send message delay => exact account_send h message delay
  | tick n => exact ⟨h.entries, h.inHand, h.toDelete, h.done, h.log, h.kept⟩
  | receive e again he _ => exact account_receive h he _
  | handle c hc => exact account_handle h hc
  | delete c hc => exact account_delete h hc
  | lose r =>
      exact ⟨h.entries, fun c hc => h.inHand c (mem_drop.mp hc).1, h.toDelete, h.done, h.log, h.kept⟩
  | loseHandled r =>
      exact ⟨h.entries, h.inHand, fun c hc => h.toDelete c (mem_drop.mp hc).1, h.done, h.log, h.kept⟩
  | expire id => exact account_expire h id

/-- **In every run** a message is on the queue, or was handled without an error, or its time is over;
    and the log is of messages that were sent. -/
theorem accounted {C : State μ L → Action μ → Prop} (h : Run (step k) C (State.start μ L) s) :
    Account k s :=
  h.invariant ⟨nofun, nofun, nofun, nofun, nofun, nofun⟩
    fun _ hs _ hstep => account_step hs (step_cases hstep)

/-! ## 3. At most once -/

/-- **What is received is finished before it comes back**: no time passes over a deadline, no handled
    message is lost, and the queue shows nothing that is out of sight. -/
def Timely (s : State μ L) : Action μ → Prop
  | .tick n => ∀ c ∈ s.inHand ++ s.toDelete, s.now + n < c.deadline
  | .receive _ again => again = false
  | .loseHandled _ => False
  | _ => True

/-- Consumers have at most one copy of a message, and it is the queue's last one. -/
structure Once (s : State μ L) : Prop where
  entries : (s.entries.map (·.id)).Nodup
  inHand : (s.inHand.map (·.receipt.1)).Nodup
  held : ∀ c ∈ s.inHand ++ s.toDelete, s.now < c.deadline ∧ ∀ e ∈ s.entries, e.id = c.receipt.1 →
    e.visibleAt = c.deadline ∧ e.receives = c.receipt.2
  gone : ∀ c ∈ s.done, c ∈ s.toDelete ∨ ∀ e ∈ s.entries, e.id ≠ c.receipt.1
  apart : ∀ c ∈ s.done, ∀ x ∈ s.inHand, x.receipt.1 ≠ c.receipt.1
  done : (s.done.map (·.receipt.1)).Nodup

theorem sent_lt {id : Nat} {m : μ} (h : Sent s id m) : id < s.sent.length :=
  (List.getElem?_eq_some_iff.mp h).1

theorem once_send (ha : Account k s) (h : Once s) (message : μ) (delay : Nat) :
    Once (s.send message delay) := by
  have hcopy : ∀ c ∈ s.inHand ++ s.toDelete, c.receipt.1 < s.sent.length := by
    intro c hc
    rcases List.mem_append.mp hc with hc | hc
    · exact sent_lt (ha.inHand c hc)
    · exact sent_lt (ha.done c (ha.toDelete c hc)).1
  have hentry : ∀ e ∈ (s.send message delay).entries, e ∈ s.entries ∨ e.id = s.sent.length := by
    intro e he
    rcases List.mem_append.mp he with he | he
    · exact Or.inl he
    · exact Or.inr (by rw [List.mem_singleton.mp he])
  refine ⟨?_, h.inHand, ?_, ?_, h.apart, h.done⟩
  · have hentries : (s.send message delay).entries =
        s.entries ++ [⟨s.sent.length, message, s.now + delay, 0⟩] := rfl
    rw [hentries, List.map_append, List.nodup_append]
    refine ⟨h.entries, List.nodup_singleton _, ?_⟩
    intro id hid id' hid'
    obtain ⟨e, he, rfl⟩ := List.mem_map.mp hid
    have hlt := sent_lt (ha.entries e he)
    rw [List.mem_singleton.mp hid']
    exact Nat.ne_of_lt hlt
  · intro c hc
    refine ⟨(h.held c hc).1, fun e he heq => ?_⟩
    rcases hentry e he with he | hid
    · exact (h.held c hc).2 e he heq
    · have hlt := hcopy c hc
      omega
  · intro c hc
    rcases h.gone c hc with hdelete | hnone
    · exact Or.inl hdelete
    · refine Or.inr fun e he => ?_
      rcases hentry e he with he | hid
      · exact hnone e he
      · have hlt := sent_lt (ha.done c hc).1
        omega

/-- Whoever holds a copy is not past its deadline, so the queue does not show the message. -/
theorem not_held (h : Once s) {e : Entry μ} (he : e ∈ s.entries) (hvisible : e.visibleAt ≤ s.now) :
    ∀ c ∈ s.inHand ++ s.toDelete, c.receipt.1 ≠ e.id := by
  intro c hc heq
  obtain ⟨hdeadline, hentry⟩ := h.held c hc
  have hlast := (hentry e he heq.symm).1
  omega

theorem once_receive (h : Once s) {e : Entry μ} (he : e ∈ s.entries) (hvisible : e.visibleAt ≤ s.now)
    {timeout : Nat} (hpos : 0 < timeout) : Once (s.receive timeout e) := by
  have hfree := not_held h he hvisible
  have hids : (s.receive timeout e).entries.map (·.id) = s.entries.map (·.id) := by
    rw [State.receive, List.map_map]
    refine List.map_congr_left fun x _ => ?_
    show (if x.id = e.id then x.received (s.now + timeout) else x).id = x.id
    split <;> rfl
  have hentry : ∀ x ∈ (s.receive timeout e).entries,
      (∃ y ∈ s.entries, y.id = x.id) ∧ (x.id = e.id → x = e.received (s.now + timeout)) ∧
        (x.id ≠ e.id → x ∈ s.entries) := by
    intro x hx
    obtain ⟨y, hy, rfl⟩ := List.mem_map.mp hx
    by_cases hyid : y.id = e.id
    · have hye : y = e := List.inj_on_of_nodup_map h.entries hy he hyid
      subst hye
      rw [if_pos rfl]
      exact ⟨⟨y, hy, rfl⟩, fun _ => rfl, fun hne => absurd rfl hne⟩
    · rw [if_neg hyid]
      exact ⟨⟨y, hy, rfl⟩, fun heq => absurd heq hyid, fun _ => hy⟩
  refine ⟨hids ▸ h.entries, ?_, ?_, ?_, ?_, h.done⟩
  · refine List.nodup_cons.mpr ⟨fun hmem => ?_, h.inHand⟩
    obtain ⟨c, hc, heq⟩ := List.mem_map.mp hmem
    exact hfree c (List.mem_append_left _ hc) heq
  · intro c hc
    rcases List.mem_cons.mp hc with rfl | hc
    · refine ⟨Nat.lt_add_of_pos_right hpos, fun x hx heq => ?_⟩
      rw [(hentry x hx).2.1 heq]
      exact ⟨rfl, rfl⟩
    · refine ⟨(h.held c hc).1, fun x hx heq => ?_⟩
      have hne : x.id ≠ e.id := heq ▸ hfree c hc
      exact (h.held c hc).2 x ((hentry x hx).2.2 hne) heq
  · intro c hc
    rcases h.gone c hc with hdelete | hnone
    · exact Or.inl hdelete
    · refine Or.inr fun x hx => ?_
      obtain ⟨y, hy, hid⟩ := (hentry x hx).1
      exact hid ▸ hnone y hy
  · intro c hc x hx
    rcases List.mem_cons.mp hx with rfl | hx
    · -- a message that was handled is out of sight or off the queue
      intro heq
      rcases h.gone c hc with hdelete | hnone
      · exact hfree c (List.mem_append_right _ hdelete) heq.symm
      · exact hnone e he heq
    · exact h.apart c hc x hx

theorem once_handle (h : Once s) {c : Copy μ} (hc : c ∈ s.inHand) : Once (s.handle k c) := by
  have hdrop : ∀ x ∈ drop c.receipt s.inHand, x.receipt.1 ≠ c.receipt.1 := by
    intro x hx heq
    obtain ⟨hmem, hne⟩ := mem_drop.mp hx
    exact hne (congrArg Copy.receipt (List.inj_on_of_nodup_map h.inHand hmem hc heq))
  have hinHand : ((drop c.receipt s.inHand).map (·.receipt.1)).Nodup :=
    h.inHand.sublist (List.filter_sublist.map _)
  have hmem : ∀ x ∈ drop c.receipt s.inHand, x ∈ s.inHand := fun x hx => (mem_drop.mp hx).1
  by_cases hok : (k.handle c.message c.receipt.2).2 = true
  · obtain ⟨hdelete, hdone⟩ := handle_ok s hok
    refine ⟨h.entries, hinHand, ?_, ?_, ?_, ?_⟩
    · intro x hx
      rw [hdelete] at hx
      refine h.held x ?_
      rcases List.mem_append.mp hx with hx | hx
      · exact List.mem_append_left _ (hmem x hx)
      · rcases List.mem_cons.mp hx with rfl | hx
        · exact List.mem_append_left _ hc
        · exact List.mem_append_right _ hx
    · intro x hx
      rw [hdone] at hx
      rw [hdelete]
      rcases List.mem_cons.mp hx with rfl | hx
      · exact Or.inl List.mem_cons_self
      · exact (h.gone x hx).imp_left (List.mem_cons_of_mem c)
    · intro x hx y hy
      rw [hdone] at hx
      rcases List.mem_cons.mp hx with rfl | hx
      · exact hdrop y hy
      · exact h.apart x hx y (hmem y hy)
    · rw [hdone]
      refine List.nodup_cons.mpr ⟨fun hid => ?_, h.done⟩
      obtain ⟨x, hx, heq⟩ := List.mem_map.mp hid
      exact h.apart x hx c hc heq.symm
  · obtain ⟨hdelete, hdone⟩ := handle_error s hok
    refine ⟨h.entries, hinHand, ?_, ?_, ?_, ?_⟩
    · intro x hx
      rw [hdelete] at hx
      refine h.held x ?_
      rcases List.mem_append.mp hx with hx | hx
      · exact List.mem_append_left _ (hmem x hx)
      · exact List.mem_append_right _ hx
    · rw [hdone, hdelete]
      exact h.gone
    · intro x hx y hy
      rw [hdone] at hx
      exact h.apart x hx y (hmem y hy)
    · rw [hdone]
      exact h.done

theorem once_delete (h : Once s) {c : Copy μ} (hc : c ∈ s.toDelete) : Once (s.delete c.receipt) := by
  have hentry : ∀ e ∈ (s.delete c.receipt).entries, e ∈ s.entries := fun e he => (List.mem_filter.mp he).1
  refine ⟨h.entries.sublist (List.filter_sublist.map _), h.inHand, ?_, ?_, h.apart, h.done⟩
  · intro x hx
    have hx' : x ∈ s.inHand ++ s.toDelete := by
      rcases List.mem_append.mp hx with hx | hx
      · exact List.mem_append_left _ hx
      · exact List.mem_append_right _ (mem_drop.mp hx).1
    exact ⟨(h.held x hx').1, fun e he => (h.held x hx').2 e (hentry e he)⟩
  · intro x hx
    rcases h.gone x hx with hdelete | hnone
    · by_cases hreceipt : x.receipt = c.receipt
      · -- its entry had this receipt, and is deleted with it
        refine Or.inr fun e he heq => ?_
        obtain ⟨hmem, hne⟩ := List.mem_filter.mp he
        rw [hreceipt] at heq
        have hreceives := ((h.held c (List.mem_append_right _ hc)).2 e hmem heq).2
        exact bne_iff_ne.mp hne (Prod.ext heq hreceives)
      · exact Or.inl (mem_drop.mpr ⟨hdelete, hreceipt⟩)
    · exact Or.inr fun e he => hnone e (hentry e he)

/-- What one timely step keeps. -/
theorem once_step (hpos : 0 < k.visibilityTimeout) (ha : Account k s) (h : Once s)
    (ht : Timely s a) (hstep : Step k s a s') : Once s' := by
  cases hstep with
  | send message delay => exact once_send ha h message delay
  | tick n => exact ⟨h.entries, h.inHand, fun c hc => ⟨ht c hc, (h.held c hc).2⟩, h.gone, h.apart, h.done⟩
  | receive e again he hvisible =>
      have hagain : again ≠ true := by
        rw [show again = false from ht]
        exact Bool.false_ne_true
      exact once_receive h he (hvisible.resolve_left hagain) hpos
  | handle c hc => exact once_handle h hc
  | delete c hc => exact once_delete h hc
  | lose r =>
      refine ⟨h.entries, h.inHand.sublist (List.filter_sublist.map _), ?_, h.gone, ?_, h.done⟩
      · intro c hc
        rcases List.mem_append.mp hc with hc | hc
        · exact h.held c (List.mem_append_left _ (mem_drop.mp hc).1)
        · exact h.held c (List.mem_append_right _ hc)
      · exact fun c hc x hx => h.apart c hc x (mem_drop.mp hx).1
  | loseHandled r => exact ht.elim
  | expire id =>
      have hentry : ∀ e ∈ (s.expire id).entries, e ∈ s.entries := fun e he => (List.mem_filter.mp he).1
      exact ⟨h.entries.sublist (List.filter_sublist.map _), h.inHand,
        fun c hc => ⟨(h.held c hc).1, fun e he => (h.held c hc).2 e (hentry e he)⟩,
        fun c hc => (h.gone c hc).imp_right fun hnone e he => hnone e (hentry e he), h.apart, h.done⟩

/-- **In every timely run** no message is handled twice without an error. -/
theorem once (hpos : 0 < k.visibilityTimeout) (h : Run (step k) Timely (State.start μ L) s) :
    Once s := by
  refine h.invariant ⟨List.nodup_nil, List.nodup_nil, nofun, nofun, nofun, List.nodup_nil⟩ ?_
  intro s a s' hrun hs ht hstep
  exact once_step hpos (accounted hrun) hs ht (step_cases hstep)

end Steps

end Queue
