/-
  File:      BlogDemo/Flink/Windows.lean
  Subject:   WHAT THE FLINK JOB PRINTS DOES NOT DEPEND ON ITS LUCK: neither on when the watermarks come, nor,
             within the two minutes, on the order of the events.

  * **`job_batch`** -- events that are at most two minutes behind are grouped as if all were there from
    the beginning, and in another such order they give the same windows;
  * **`job_open`** -- whatever comes, a watermark that has caught up leaves at most two windows open.
-/
import BlogDemo.Flink.DataStreamJob

namespace DataStreamJob

open Flink

/-- No event is more than two minutes below one before it. -/
def InBound (events : List Event) : Prop := overdue timestamp MAX_OUT_OF_ORDERNESS [] events = []

instance (events : List Event) : Decidable (InBound events) :=
  inferInstanceAs (Decidable (overdue _ _ _ _ = _))

/-- **The stream is the batch**: events that are at most two minutes behind give the windows of the
    whole list, in whatever schedule of watermarks; and two such orders of the same events give the
    same windows, each with the same events. -/
theorem job_batch {seen seen' : List Event} {s s' : Operator Event} (h : Job seen s)
    (h' : Job seen' s') (hperm : seen.Perm seen') (hin : InBound seen) (hin' : InBound seen') :
    (finish s).late = [] ∧ printed (finish s) = lines seen ∧
    List.Forall₂ (fun p q => p.start = q.start ∧ p.elements.Perm q.elements)
      (finish s).outputs (finish s').outputs := by
  obtain ⟨hlate, hwindows⟩ := run_inBound window_size_pos h hin
  obtain ⟨_, hwindows'⟩ := run_inBound window_size_pos h' hin'
  have houtputs : (finish s).outputs = batch timestamp WINDOW_SIZE seen :=
    (outputs_top s).trans hwindows
  have houtputs' : (finish s').outputs = batch timestamp WINDOW_SIZE seen' :=
    (outputs_top s').trans hwindows'
  refine ⟨hlate, printed_lines houtputs, ?_⟩
  rw [houtputs, houtputs']
  exact batch_perm hperm

/-- The events of the source, with E3 where it belongs. -/
def inTheirOrder : List Event :=
  [⟨"E3", ts 10 3⟩, ⟨"E1", ts 10 4⟩, ⟨"E2", ts 10 6⟩, ⟨"E4", ts 10 7⟩, ⟨"WM", ts 10 20⟩]

/-- E3 one minute late. -/
def oneMinute : List Event :=
  [⟨"E1", ts 10 4⟩, ⟨"E3", ts 10 3⟩, ⟨"E2", ts 10 6⟩, ⟨"E4", ts 10 7⟩, ⟨"WM", ts 10 20⟩]

theorem job_batch_oneMinute : printed (finish (runPeriodic oneMinute)) = lines oneMinute ∧
    List.Forall₂ (fun p q => p.start = q.start ∧ p.elements.Perm q.elements)
      (finish (runPeriodic oneMinute)).outputs (finish (runPeriodic inTheirOrder)).outputs :=
  (job_batch (periodic_run oneMinute) (periodic_run inTheirOrder) (by decide) (by decide)
    (by decide)).2

/-- **At most two windows are open** once the watermark has caught up with the events seen, in whatever
    order they came. -/
theorem job_open {seen : List Event} {s : Operator Event} {m : Int} (h : Job seen s)
    (hup : CaughtUp timestamp MAX_OUT_OF_ORDERNESS m seen s) : s.pending.length ≤ 2 := by
  have hlength := open_length window_size_pos h hup
  simp only [WINDOW_SIZE, MAX_OUT_OF_ORDERNESS] at hlength
  omega

/-- After the second event of the source both of its windows are open. -/
theorem job_open_two : (runPeriodic (TestSource.take 2)).pending.length = 2 ∧
    (runPeriodic (TestSource.take 2)).pending.length ≤ 2 :=
  ⟨by decide, job_open (m := timestamp ⟨"E2", ts 10 6⟩) (periodic_run _) ⟨by decide, by decide⟩⟩

end DataStreamJob
