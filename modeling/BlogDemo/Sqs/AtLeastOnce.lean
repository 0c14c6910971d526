/-
  File:      BlogDemo/Sqs/AtLeastOnce.lean
  Subject:   THE CONSUMERS OF THE QUEUE, in runs: any number of instances of the service poll it, handle
             what they receive, and delete what they handled without an error.

  * **`delivered`** -- in every run a message is on the queue, or its time there is over, or it was
    logged as its case says; one of the case that throws is never taken off by a consumer;
  * **`handled_once`** -- where what is received is finished within the ten seconds of the consumer's
    visibility timeout, and the queue shows nothing that is out of sight, a message that left the queue
    in time was handled exactly once.
-/
import BlogDemo.Lib.Queue
import BlogDemo.Sqs.Messages

namespace Sqs

open Runs Queue Utf16

/-- The consumer, in seconds: a message is handled by `handleMessage`, with its receive count as the
    service gives it. -/
def consumer : Consumer Message Log where
  visibilityTimeout := 10
  handle m n :=
    let out := handleMessage m (toString n)
    (out.1, out.2.isOk)

theorem consumer_ok (m : Message) (n : Nat) :
    (consumer.handle m n).2 = true ↔ m.handler ≠ .testError := by
  rw [← handleMessage_ok_iff m (toString n)]
  show (handleMessage m (toString n)).2.isOk = true ↔ _
  cases (handleMessage m (toString n)).2 with
  | ok u => exact ⟨fun _ => rfl, fun _ => rfl⟩
  | error e => exact ⟨nofun, nofun⟩

variable {s : State Message Log}

/-- The message is on the queue, in sight or not. -/
def Queued (s : State Message Log) (id : Nat) : Prop := ∃ e ∈ s.entries, e.id = id

/-- **No message is lost**: whoever sent it, in whatever order the consumers receive, handle, delete, fail
    and stop, it stays on the queue until its time is over or it is logged; and nothing else is
    logged. -/
theorem delivered {C : State Message Log → Action Message → Prop}
    (h : Run (step consumer) C (State.start Message Log) s) :
    (∀ id m, Sent s id m → Queued s id ∨ id ∈ s.expired ∨
      m.handler ≠ .testError ∧ ∃ n : Nat, ∀ l ∈ (handleMessage m (toString n)).1, l ∈ s.log) ∧
    ∀ l ∈ s.log, ∃ m ∈ s.sent, ∃ n : Nat, l ∈ (handleMessage m (toString n)).1 := by
  have ha : Account consumer s := accounted h
  refine ⟨fun id m hm => ?_, ha.log⟩
  rcases ha.kept id (sent_lt hm) with hentry | ⟨c, hc, rfl⟩ | hexpired
  · exact Or.inl hentry
  · obtain ⟨hsent, hok, hlog⟩ := ha.done c hc
    obtain rfl : c.message = m := Option.some.inj (hsent.symm.trans hm)
    exact Or.inr (Or.inr ⟨(consumer_ok _ _).mp hok, c.receipt.2, hlog⟩)
  · exact Or.inr (Or.inl hexpired)

/-- How often the message was handled without an error. -/
def timesHandled (s : State Message Log) (id : Nat) : Nat := (s.done.map (·.receipt.1)).count id

/-- **Exactly once**: in a timely run, in which the queue also shows nothing that is out of sight, no
    message is handled twice without an error, and one that is off the queue before its time is over was
    handled so. -/
theorem handled_once (h : Run (step consumer) Timely (State.start Message Log) s) :
    (∀ id, timesHandled s id ≤ 1) ∧
      ∀ id m, Sent s id m → ¬ Queued s id → id ∉ s.expired → timesHandled s id = 1 := by
  have hpos : 0 < consumer.visibilityTimeout := by decide
  have hle : ∀ id, timesHandled s id ≤ 1 := List.nodup_iff_count_le_one.mp (once hpos h).done
  refine ⟨hle, fun id m hm hqueued hexpired => Nat.le_antisymm (hle id) ?_⟩
  rcases (accounted h).kept id (sent_lt hm) with hentry | ⟨c, hc, rfl⟩ | hover
  · exact absurd hentry hqueued
  · exact List.count_pos_iff.mpr (List.mem_map_of_mem hc)
  · exact absurd hover hexpired

/-! ## A message that is handled and deleted -/

def hello : Message := ⟨some (text "hello"), none⟩

theorem hello_handler : hello.handler = .default := by decide +kernel

/-- It is received once, at once. -/
def helloCopy : Copy Message := ⟨(0, 1), hello, 10⟩

def received : State Message Log :=
  ((State.start Message Log).send hello 0).receive 10 ⟨0, hello, 0, 0⟩

def finished : State Message Log := (received.handle consumer helloCopy).delete (0, 1)

theorem run_finished : Run (step consumer) Timely (State.start Message Log) finished := by
  have hok : (consumer.handle hello 1).2 = true := by
    rw [consumer_ok, hello_handler]
    decide
  have hsend : Run (step consumer) Timely (State.start Message Log)
      ((State.start Message Log).send hello 0) := .step (a := .send hello 0) .start trivial rfl
  have hreceive : Run (step consumer) Timely (State.start Message Log) received :=
    .step (a := .receive 0 false) hsend rfl rfl
  have hhandle : Run (step consumer) Timely (State.start Message Log)
      (received.handle consumer helloCopy) := .step (a := .handle (0, 1)) hreceive trivial rfl
  refine .step (a := .delete (0, 1)) hhandle trivial ?_
  have hdelete : (received.handle consumer helloCopy).toDelete = [helloCopy] :=
    (handle_ok received hok).1
  rw [step, hdelete]
  rfl

theorem sent_hello : Sent finished 0 hello := rfl

theorem not_queued : ¬ Queued finished 0 := by
  intro h
  obtain ⟨e, he, _⟩ := h
  cases he

theorem delivered_hello : ∃ n : Nat, ∀ l ∈ (handleMessage hello (toString n)).1, l ∈ finished.log := by
  rcases (delivered run_finished).1 0 hello sent_hello with hqueued | hexpired | ⟨_, hlog⟩
  · exact absurd hqueued not_queued
  · cases hexpired
  · exact hlog

theorem handled_once_hello : timesHandled finished 0 = 1 :=
  (handled_once run_finished).2 0 hello sent_hello not_queued nofun

end Sqs
