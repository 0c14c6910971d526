/-
  File:      BlogDemo/Lib/Flink/Batch.lean
  Subject:   WINDOWS OVER A STREAM AND OVER A FINISHED LIST of events: what the operator outputs, whenever
             the watermarks come, and what grouping the events outputs.

  * `batch` -- the events of a list, grouped by their windows; `batch_grouped` -- a window has all of
    its events, in their order; `batch_perm` -- other orders of the events give the same windows;
  * **`run_batch`** -- a run outputs the grouping of the events it has not sent to the side output;
    `run_inBound` -- these are all of them, when none is overdue;
  * `CaughtUp`, **`open_length`** -- a watermark that has caught up leaves few windows open.
-/
import BlogDemo.Lib.Flink
import Mathlib.Data.Int.Interval
import Mathlib.Data.List.Induction

namespace Flink

variable {α : Type}

/-! ## 1. The batch -/

section Batch

variable (time : α → Int) (size : Int)

/-- An event is added to its window. -/
def group (ps : List (Pane α)) (a : α) : List (Pane α) := addTo (windowStart size (time a)) a ps

/-- **The windows of a list of events**, in their order. -/
def batch (events : List α) : List (Pane α) := events.foldl (group time size) []

/-- The window of this start, with the events it gets from the list. -/
def window (events : List α) (start : Int) : Pane α :=
  ⟨start, events.filter fun a => windowStart size (time a) = start⟩

end Batch

variable {time : α → Int} {size bound : Int} {start : Int} {a : α} {ps : List (Pane α)}

theorem batch_snoc (events : List α) (a : α) :
    batch time size (events ++ [a]) = group time size (batch time size events) a := by
  rw [batch, List.foldl_append]
  rfl

/-- What is before the window of the event stays as it is. -/
theorem addTo_append {os : List (Pane α)} (h : ∀ p ∈ os, p.start < start) :
    addTo start a (os ++ ps) = os ++ addTo start a ps := by
  induction os with
  | nil => rfl
  | cons p os ih =>
      have hp := h p List.mem_cons_self
      show (if start < p.start then _ else if p.start = start then _ else _) = _
      rw [if_neg (by omega), if_neg (by omega)]
      exact congrArg (p :: ·) (ih fun q hq => h q (List.mem_cons_of_mem _ hq))

/-- The starts after an event: those before, and its own. -/
theorem mem_addTo_start {t : Int} :
    t ∈ (addTo start a ps).map Pane.start ↔ t = start ∨ t ∈ ps.map Pane.start := by
  induction ps with
  | nil => simp [addTo]
  | cons p rest ih =>
      unfold addTo
      split
      · simp
      · split
        · rename_i hp
          simp [hp]
        · simp only [List.map_cons, List.mem_cons, ih]
          tauto

/-- What a window after an event was before: another one, or its own, which may be new. -/
theorem mem_addTo_sorted {p : Pane α} (hsorted : ps.Pairwise fun p q => p.start < q.start)
    (h : p ∈ addTo start a ps) : p.start ≠ start ∧ p ∈ ps ∨
      (∃ q ∈ ps, q.start = start ∧ p = ⟨start, q.elements ++ [a]⟩) ∨
      start ∉ ps.map Pane.start ∧ p = ⟨start, [a]⟩ := by
  induction ps with
  | nil => exact Or.inr (Or.inr ⟨List.not_mem_nil, List.mem_singleton.mp h⟩)
  | cons q rest ih =>
      obtain ⟨hq, hrest⟩ := List.pairwise_cons.mp hsorted
      unfold addTo at h
      split at h
      · rename_i hlt
        have hgreater : ∀ r ∈ q :: rest, start < r.start := by
          intro r hr
          rcases List.mem_cons.mp hr with rfl | hr
          · exact hlt
          · exact hlt.trans (hq r hr)
        rcases List.mem_cons.mp h with rfl | h
        · refine Or.inr (Or.inr ⟨fun hmem => ?_, rfl⟩)
          obtain ⟨r, hr, hstart⟩ := List.mem_map.mp hmem
          exact absurd (hgreater r hr) (by omega)
        · exact Or.inl ⟨(hgreater p h).ne', h⟩
      · split at h
        · rename_i hstart
          rcases List.mem_cons.mp h with rfl | h
          · exact Or.inr (Or.inl ⟨q, List.mem_cons_self, hstart, by rw [hstart]⟩)
          · exact Or.inl ⟨by have := hq p h; omega, List.mem_cons_of_mem _ h⟩
        · rename_i hlt hne
          rcases List.mem_cons.mp h with rfl | h
          · exact Or.inl ⟨hne, List.mem_cons_self⟩
          · rcases ih hrest h with ⟨hp, h⟩ | ⟨r, hr, h⟩ | ⟨hnew, h⟩
            · exact Or.inl ⟨hp, List.mem_cons_of_mem _ h⟩
            · exact Or.inr (Or.inl ⟨r, List.mem_cons_of_mem _ hr, h⟩)
            · refine Or.inr (Or.inr ⟨fun hmem => ?_, h⟩)
              rcases List.mem_cons.mp hmem with hq | hmem
              · exact hne hq.symm
              · exact hnew hmem

/-- **The windows of a list**: in order, each start once, and with all of its events. -/
structure Grouped (time : α → Int) (size : Int) (events : List α) (ps : List (Pane α)) : Prop where
  sorted : ps.Pairwise fun p q => p.start < q.start
  starts : ∀ t, t ∈ ps.map Pane.start ↔ ∃ a ∈ events, windowStart size (time a) = t
  panes : ∀ p ∈ ps, p = window time size events p.start

/-- A new event is of one window only. -/
theorem window_snoc (events : List α) (a : α) (t : Int) : window time size (events ++ [a]) t =
    ⟨t, (window time size events t).elements ++
      if windowStart size (time a) = t then [a] else []⟩ := by
  rw [window, List.filter_append]
  by_cases h : windowStart size (time a) = t
  · simp [window, h]
  · simp [window, h]

theorem Grouped.add {events : List α} (h : Grouped time size events ps) (a : α) :
    Grouped time size (events ++ [a]) (group time size ps a) where
  sorted := addTo_sorted h.sorted
  starts t := by
    rw [group, mem_addTo_start, h.starts t]
    simp only [List.mem_append, List.mem_singleton, or_and_right, exists_or, exists_eq_left]
    exact or_comm.trans (or_congr Iff.rfl eq_comm)
  panes p hp := by
    rcases mem_addTo_sorted h.sorted hp with ⟨hne, hp⟩ | ⟨q, hq, hstart, rfl⟩ | ⟨hnew, rfl⟩
    · rw [window_snoc, if_neg hne.symm, List.append_nil]
      exact h.panes p hp
    · rw [window_snoc, if_pos rfl, ← hstart, ← h.panes q hq]
    · have hnone : (window time size events (windowStart size (time a))).elements = [] := by
        refine List.filter_eq_nil_iff.mpr fun b hb heq => hnew ?_
        exact (h.starts _).mpr ⟨b, hb, of_decide_eq_true heq⟩
      rw [window_snoc, if_pos rfl, hnone]
      rfl

/-- **Grouping is right.** -/
theorem batch_grouped (events : List α) : Grouped time size events (batch time size events) := by
  induction events using List.reverseRecOn with
  | nil => exact ⟨.nil, by simp [batch], nofun⟩
  | append_singleton events a ih =>
      rw [batch_snoc]
      exact ih.add a

theorem Grouped.eq_map {events : List α} (h : Grouped time size events ps) :
    ps = (ps.map Pane.start).map (window time size events) := by
  rw [List.map_map]
  exact (List.map_id _).symm.trans (List.map_congr_left h.panes)

/-- **In any order** the events give the same windows, each with the same events. -/
theorem batch_perm {events events' : List α} (h : events.Perm events') :
    List.Forall₂ (fun p q => p.start = q.start ∧ p.elements.Perm q.elements)
      (batch time size events) (batch time size events') := by
  have hg : Grouped time size events (batch time size events) := batch_grouped events
  have hg' : Grouped time size events' (batch time size events') := batch_grouped events'
  have hstarts : (batch time size events).map Pane.start =
      (batch time size events').map Pane.start := by
    have hlt : ∀ {ps : List (Pane α)}, ps.Pairwise (fun p q => p.start < q.start) →
        (ps.map Pane.start).Pairwise (· < ·) := fun h => List.pairwise_map.mpr h
    have hmem : ∀ t, t ∈ (batch time size events).map Pane.start ↔
        t ∈ (batch time size events').map Pane.start := by
      intro t
      rw [hg.starts, hg'.starts]
      exact exists_congr fun a => and_congr_left' h.mem_iff
    exact ((List.perm_ext_iff_of_nodup ((hlt hg.sorted).imp fun h => h.ne)
      ((hlt hg'.sorted).imp fun h => h.ne)).mpr hmem).eq_of_pairwise
        (fun _ _ _ _ h h' => absurd h h'.asymm) (hlt hg.sorted) (hlt hg'.sorted)
  rw [hg.eq_map, hg'.eq_map, hstarts, List.forall₂_map_left_iff, List.forall₂_map_right_iff]
  exact List.forall₂_same.mpr fun t _ => ⟨rfl, h.filter _⟩

/-! ## 2. The stream -/

section Stream

variable {seen : List α} {s : Operator α}

/-- **A run groups what it has not sent to the side output**, in the order in which it came. -/
theorem run_batch (hsize : 0 < size) (h : Run time size bound seen s) : ∃ kept,
    kept.Sublist seen ∧ (kept ++ s.late).Perm seen ∧
    s.outputs ++ s.pending = batch time size kept := by
  induction h with
  | start => exact ⟨[], .refl _, .refl _, rfl⟩
  | @event seen s h a ih =>
      obtain ⟨kept, hsub, hperm, hwindows⟩ := ih
      unfold Operator.onEvent
      dsimp only
      split
      · refine ⟨kept, hsub.trans (List.sublist_append_left _ _), ?_, hwindows⟩
        rw [← List.append_assoc]
        exact hperm.append_right [a]
      · rename_i hlate
        refine ⟨kept ++ [a], hsub.append (.refl _), ?_, ?_⟩
        · have hswap : (kept ++ [a] ++ s.late).Perm (kept ++ s.late ++ [a]) := by
            rw [List.append_assoc, List.append_assoc]
            exact List.perm_append_comm.append_left kept
          exact hswap.trans (hperm.append_right [a])
        · rw [batch_snoc, ← hwindows]
          refine (addTo_append fun p hp => ?_).symm
          exact ((run_inv hsize h).reached p hp).lt hlate
  | watermark h wm hmono hwm ih =>
      obtain ⟨kept, hsub, hperm, hwindows⟩ := ih
      exact ⟨kept, hsub, hperm, (onWatermark_windows _ _).trans hwindows⟩

/-- **Events that are not overdue are all grouped**, whenever the watermarks came. -/
theorem run_inBound (hsize : 0 < size) (h : Run time size bound seen s)
    (hin : overdue time bound [] seen = []) :
    s.late = [] ∧ s.outputs ++ s.pending = batch time size seen := by
  have hlate : s.late = [] := by
    have hsub := (run_inv hsize h).late
    rw [hin] at hsub
    exact List.sublist_nil.mp hsub
  obtain ⟨kept, hsub, hperm, hwindows⟩ := run_batch hsize h
  rw [hlate, List.append_nil] at hperm
  rw [hsub.eq_of_length hperm.length_eq] at hwindows
  exact ⟨hlate, hwindows⟩

/-- The final watermark outputs every window. -/
theorem outputs_top (s : Operator α) : (s.onWatermark size ⊤).outputs = s.outputs ++ s.pending := by
  rw [← onWatermark_windows s ⊤, onWatermark_top, List.append_nil]

/-! ## 3. The windows that are open -/

/-- What is left of windows in order, when those that are reached are taken off the front. -/
theorem not_reached_of_dropWhile {wm : Watermark}
    (hsorted : ps.Pairwise fun p q => p.start < q.start) :
    ∀ p ∈ ps.dropWhile fun p => decide (Reached size p.start wm), ¬ Reached size p.start wm := by
  induction ps with
  | nil => nofun
  | cons q rest ih =>
      obtain ⟨hq, hrest⟩ := List.pairwise_cons.mp hsorted
      intro p hp
      by_cases hreached : Reached size q.start wm
      · rw [List.dropWhile_cons, if_pos (decide_eq_true hreached)] at hp
        exact ih hrest p hp
      · rw [List.dropWhile_cons, if_neg (by simpa using hreached)] at hp
        rcases List.mem_cons.mp hp with rfl | hp
        · exact hreached
        · have hlt := hq p hp
          exact fun h => hreached (le_trans (atTime_le.mpr (by omega)) h)

/-- What is left pending has not been reached. -/
theorem run_pending (hsize : 0 < size) (h : Run time size bound seen s) :
    ∀ p ∈ s.pending, ¬ Reached size p.start s.watermark := by
  induction h with
  | start => nofun
  | @event seen s h a ih =>
      unfold Operator.onEvent
      dsimp only
      split
      · exact ih
      · rename_i hlate
        intro p hp
        rcases start_of_mem_addTo hp with hp | ⟨q, hq, hp⟩
        · rwa [hp]
        · rw [← hp]
          exact ih q hq
  | @watermark seen s h wm hmono hwm ih =>
      exact not_reached_of_dropWhile (List.pairwise_append.mp (run_inv hsize h).sorted).2.1

/-- Integers that increase from above `lo` up to `hi`. -/
theorem length_le_of_increasing {ks : List Int} {lo hi : Int} (hks : ks.Pairwise (· < ·))
    (hlo : ∀ k ∈ ks, lo < k) (hhi : ∀ k ∈ ks, k ≤ hi) : ks.length ≤ (hi - lo).toNat := by
  have hsub : ks.toFinset ⊆ Finset.Ioc lo hi := by
    intro k hk
    have hk := List.mem_toFinset.mp hk
    exact Finset.mem_Ioc.mpr ⟨hlo k hk, hhi k hk⟩
  have hcard := Finset.card_le_card hsub
  rwa [List.toFinset_card_of_nodup (hks.imp fun h => h.ne), Int.card_Ioc] at hcard

/-- The watermark has caught up with the events seen, the latest of which is at `m`. -/
structure CaughtUp (time : α → Int) (bound m : Int) (seen : List α) (s : Operator α) : Prop where
  latest : ∀ a ∈ seen, time a ≤ m
  watermark : s.watermark = atTime (m - bound - 1)

/-- **Few windows are open**: those of the times from the bound below the latest event up to it. -/
theorem open_length {m : Int} (hsize : 0 < size) (h : Run time size bound seen s)
    (hup : CaughtUp time bound m seen s) :
    s.pending.length ≤ (m / size - (m - bound) / size + 1).toNat := by
  have hinv := run_inv hsize h
  have hpane : ∀ p ∈ s.pending, p.start = p.start / size * size ∧
      (m - bound) / size - 1 < p.start / size ∧ p.start / size ≤ m / size := by
    intro p hp
    have hmem := List.mem_append_right s.outputs hp
    obtain ⟨a, ha⟩ := List.exists_mem_of_ne_nil _ (hinv.filled p hmem)
    have hstart := hinv.inside p hmem a ha
    have hseen := hup.latest a ((hinv.inOrder p hmem).subset ha)
    have hdiv : p.start / size = time a / size := by
      rw [← hstart, windowStart, Int.mul_ediv_cancel _ hsize.ne']
    have hwm : m - bound - 1 < p.start + size - 1 := by
      refine lt_of_not_ge fun hle => run_pending hsize h p hp ?_
      rw [hup.watermark]
      exact atTime_le.mpr hle
    rw [hdiv]
    refine ⟨hstart.symm, ?_, Int.ediv_le_ediv hsize hseen⟩
    have hlt : m - bound < (time a / size + 1) * size := by
      rw [Int.add_mul, Int.one_mul, show time a / size * size = p.start from hstart]
      omega
    have := Int.ediv_lt_of_lt_mul hsize hlt
    omega
  have hsorted := (List.pairwise_append.mp hinv.sorted).2.1
  have hks : (s.pending.map fun p => p.start / size).Pairwise (· < ·) := by
    refine List.pairwise_map.mpr (hsorted.imp_of_mem fun hp hq hlt => ?_)
    rw [(hpane _ hp).1, (hpane _ hq).1] at hlt
    exact Int.lt_of_mul_lt_mul_right hlt hsize.le
  have hlength := length_le_of_increasing hks
    (fun k hk => by
      obtain ⟨p, hp, rfl⟩ := List.mem_map.mp hk
      exact (hpane p hp).2.1)
    (fun k hk => by
      obtain ⟨p, hp, rfl⟩ := List.mem_map.mp hk
      exact (hpane p hp).2.2)
  rw [List.length_map] at hlength
  omega

end Stream

end Flink
