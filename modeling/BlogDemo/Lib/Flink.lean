/-
  File:      BlogDemo/Lib/Flink.lean
  Subject:   TUMBLING EVENT-TIME WINDOWS over one stream of events and watermarks, as Flink runs them
             with parallelism 1 and no allowed lateness.

  A window is output when the watermark reaches its last millisecond; an event whose window has been
  reached goes to the side output. Times are integers, in milliseconds.

  * `Pane`, `Operator` -- a window with its events in arrival order, and the state of the operator;
  * `Run` -- events in any order, and watermarks that never decrease and stay behind the largest
    timestamp seen by the bound and one millisecond;
  * `Inv`, `run_inv` -- what every event and every watermark keeps;
  * **`run_partition`** -- after the final watermark every event is in one output or in the side
    output, once; and what is in the side output came too late.
-/
import Mathlib.Data.Int.Order.Basic
import Mathlib.Data.List.Perm.Basic
import Mathlib.Data.List.TakeWhile
import Mathlib.Order.WithBot

namespace Flink

variable {α : Type}

/-! ## 1. Watermarks and windows -/

/-- A watermark: a time, or the one before all times, or the final one. -/
abbrev Watermark := WithBot (WithTop Int)

-- the order of the integers, not one of the complete orders that include it
instance : Preorder Watermark :=
  @WithBot.instPreorder _ (@WithTop.instPreorder _ Int.instLinearOrder.toPreorder)

/-- The watermark that stands for a time. -/
def atTime (t : Int) : Watermark := ((t : WithTop Int) : WithBot (WithTop Int))

@[simp] theorem atTime_le {t u : Int} : atTime t ≤ atTime u ↔ t ≤ u := by
  rw [atTime, atTime, WithBot.coe_le_coe, WithTop.coe_le_coe]

theorem not_atTime_le_bot (t : Int) : ¬ atTime t ≤ ⊥ := WithBot.not_coe_le_bot _

/-- The start of the window of a time: the windows are aligned to the epoch. -/
def windowStart (size t : Int) : Int := t / size * size

theorem windowStart_le {size : Int} (hsize : 0 < size) (t : Int) : windowStart size t ≤ t :=
  Int.ediv_mul_le t hsize.ne'

theorem lt_windowStart_add {size : Int} (hsize : 0 < size) (t : Int) :
    t < windowStart size t + size := Int.lt_ediv_add_one_mul_self t hsize |>.trans_eq (by
      rw [windowStart, Int.add_mul, Int.one_mul])

/-- A window by its start, with the events it holds in the order of their arrival. -/
structure Pane (α : Type) where
  start : Int
  elements : List α
  deriving DecidableEq

/-- The watermark has reached the last millisecond of the window. -/
def Reached (size start : Int) (wm : Watermark) : Prop := atTime (start + size - 1) ≤ wm

instance (size start : Int) (wm : Watermark) : Decidable (Reached size start wm) :=
  @WithBot.decidableLE (WithTop Int) _ (@WithTop.decidableLE Int _ Int.decLe) _ wm

/-! ## 2. The operator -/

/-- The state of the window operator and of what it has output. -/
structure Operator (α : Type) where
  watermark : Watermark
  /-- The windows that are still to be output, the next one first. -/
  pending : List (Pane α)
  outputs : List (Pane α)
  /-- The side output. -/
  late : List α

def Operator.init : Operator α := ⟨⊥, [], [], []⟩

/-- Add an event to its window. -/
def addTo (start : Int) (a : α) : List (Pane α) → List (Pane α)
  | [] => [⟨start, [a]⟩]
  | p :: rest =>
    if start < p.start then ⟨start, [a]⟩ :: p :: rest
    else if p.start = start then ⟨p.start, p.elements ++ [a]⟩ :: rest
    else p :: addTo start a rest

section Steps

variable (time : α → Int) (size : Int)

/-- An event arrives. -/
def Operator.onEvent (s : Operator α) (a : α) : Operator α :=
  let start := windowStart size (time a)
  if Reached size start s.watermark then { s with late := s.late ++ [a] }
  else { s with pending := addTo start a s.pending }

/-- A watermark arrives: the windows it has reached are output, in their order. -/
def Operator.onWatermark (s : Operator α) (wm : Watermark) : Operator α where
  watermark := wm
  pending := s.pending.dropWhile fun p => decide (Reached size p.start wm)
  outputs := s.outputs ++ s.pending.takeWhile fun p => decide (Reached size p.start wm)
  late := s.late

variable (bound : Int)

/-- A watermark that may be emitted after the events seen: at most the largest timestamp, less the
    bound and one millisecond. -/
def Allowed (seen : List α) (wm : Watermark) : Prop :=
  wm = ⊥ ∨ ∃ a ∈ seen, wm ≤ atTime (time a - bound - 1)

/-- An event that is more than the bound below one that came before it. -/
def Overdue (before : List α) (a : α) : Prop := ∃ b ∈ before, time a < time b - bound

instance (before : List α) (a : α) : Decidable (Overdue time bound before a) :=
  inferInstanceAs (Decidable (∃ b ∈ before, _))

/-- The events of a list that are overdue when they come, after those before. -/
def overdue (before : List α) : List α → List α
  | [] => []
  | a :: rest =>
    if Overdue time bound before a then a :: overdue (before ++ [a]) rest
    else overdue (before ++ [a]) rest

/-- **A run**: events in any order, and allowed watermarks that never decrease. -/
inductive Run : List α → Operator α → Prop where
  | start : Run [] .init
  | event {seen : List α} {s : Operator α} (h : Run seen s) (a : α) :
      Run (seen ++ [a]) (s.onEvent time size a)
  | watermark {seen : List α} {s : Operator α} (h : Run seen s) (wm : Watermark)
      (hmono : s.watermark ≤ wm) (hwm : Allowed time bound seen wm) :
      Run seen (s.onWatermark size wm)

end Steps

/-! ## 3. Adding to a window -/

section Add

variable {start : Int} {a : α} {ps : List (Pane α)} {p : Pane α}

/-- Only the window of the event has changed. -/
theorem mem_addTo (h : p ∈ addTo start a ps) : p ∈ ps ∨ p = ⟨start, [a]⟩ ∨
    ∃ q ∈ ps, q.start = start ∧ p = ⟨start, q.elements ++ [a]⟩ := by
  induction ps with
  | nil => exact Or.inr (Or.inl (List.mem_singleton.mp h))
  | cons q rest ih =>
      unfold addTo at h
      split at h
      · rcases List.mem_cons.mp h with rfl | h
        · exact Or.inr (Or.inl rfl)
        · exact Or.inl h
      · split at h
        · rename_i hq
          rcases List.mem_cons.mp h with rfl | h
          · exact Or.inr (Or.inr ⟨q, List.mem_cons_self, hq, by rw [hq]⟩)
          · exact Or.inl (List.mem_cons_of_mem _ h)
        · rcases List.mem_cons.mp h with rfl | h
          · exact Or.inl List.mem_cons_self
          · rcases ih h with h | h | ⟨q', hq', h⟩
            · exact Or.inl (List.mem_cons_of_mem _ h)
            · exact Or.inr (Or.inl h)
            · exact Or.inr (Or.inr ⟨q', List.mem_cons_of_mem _ hq', h⟩)

/-- The start of every window after it: the one of the event, or one that was there. -/
theorem start_of_mem_addTo (h : p ∈ addTo start a ps) :
    p.start = start ∨ ∃ q ∈ ps, q.start = p.start := by
  rcases mem_addTo h with h | rfl | ⟨q, _, _, rfl⟩
  · exact Or.inr ⟨p, h, rfl⟩
  · exact Or.inl rfl
  · exact Or.inl rfl

/-- The events of the windows, and the new one. -/
theorem addTo_elements (start : Int) (a : α) (ps : List (Pane α)) :
    ((addTo start a ps).flatMap Pane.elements).Perm (ps.flatMap Pane.elements ++ [a]) := by
  induction ps with
  | nil => exact .refl _
  | cons q rest ih =>
      unfold addTo
      split
      · exact List.perm_append_comm
      · split
        · simp only [List.flatMap_cons, List.append_assoc]
          exact List.perm_append_comm.append_left q.elements
        · simp only [List.flatMap_cons, List.append_assoc]
          exact ih.append_left q.elements

/-- The windows stay in their order. -/
theorem addTo_sorted (h : ps.Pairwise fun p q => p.start < q.start) :
    (addTo start a ps).Pairwise fun p q => p.start < q.start := by
  induction ps with
  | nil => exact List.pairwise_singleton _ _
  | cons q rest ih =>
      obtain ⟨hq, hrest⟩ := List.pairwise_cons.mp h
      unfold addTo
      split
      · rename_i hlt
        refine List.pairwise_cons.mpr ⟨fun p hp => ?_, h⟩
        rcases List.mem_cons.mp hp with rfl | hp
        · exact hlt
        · exact hlt.trans (hq p hp)
      · split
        · exact List.pairwise_cons.mpr ⟨hq, hrest⟩
        · refine List.pairwise_cons.mpr ⟨fun p hp => ?_, ih hrest⟩
          rcases start_of_mem_addTo hp with hp | ⟨q', hq', hp⟩
          · omega
          · exact hp ▸ hq q' hq'

end Add

/-! ## 4. What every step keeps -/

section Invariant

variable {time : α → Int} {size bound : Int} {seen : List α} {s : Operator α} {a : α}

theorem overdue_snoc (before seen : List α) (a : α) : overdue time bound before (seen ++ [a]) =
    overdue time bound before seen ++ if Overdue time bound (before ++ seen) a then [a] else [] := by
  induction seen generalizing before with
  | nil =>
      simp only [List.nil_append, List.append_nil, overdue]
  | cons b rest ih =>
      simp only [List.cons_append, overdue, ih, List.append_assoc, List.nil_append]
      split <;> simp

theorem Reached.mono {start : Int} {wm wm' : Watermark} (h : Reached size start wm)
    (hle : wm ≤ wm') : Reached size start wm' := le_trans (show _ ≤ _ from h) hle

/-- A window that is reached is before every one that is not. -/
theorem Reached.lt {p q : Int} {wm : Watermark} (hp : Reached size p wm) (hq : ¬ Reached size q wm) :
    p < q := by
  by_contra hle
  have htime : atTime (q + size - 1) ≤ atTime (p + size - 1) := atTime_le.mpr (by omega)
  exact hq (le_trans htime hp)

/-- **An event whose window has been reached is overdue.** -/
theorem overdue_of_reached (hsize : 0 < size) {wm : Watermark} (hwm : Allowed time bound seen wm)
    (h : Reached size (windowStart size (time a)) wm) : Overdue time bound seen a := by
  rcases hwm with rfl | ⟨b, hb, hle⟩
  · exact absurd h (not_atTime_le_bot _)
  · have hend := lt_windowStart_add hsize (time a)
    have hreached := atTime_le.mp (le_trans h hle)
    exact ⟨b, hb, by omega⟩

/-- **The invariant**: every event that was seen is in one window, output or pending, or in the side
    output; the windows are in their order, and those that are output have been reached. -/
structure Inv (time : α → Int) (size bound : Int) (seen : List α) (s : Operator α) : Prop where
  once : ((s.outputs ++ s.pending).flatMap Pane.elements ++ s.late).Perm seen
  inside : ∀ p ∈ s.outputs ++ s.pending, ∀ a ∈ p.elements, windowStart size (time a) = p.start
  filled : ∀ p ∈ s.outputs ++ s.pending, p.elements ≠ []
  sorted : (s.outputs ++ s.pending).Pairwise fun p q => p.start < q.start
  inOrder : ∀ p ∈ s.outputs ++ s.pending, p.elements.Sublist seen
  reached : ∀ p ∈ s.outputs, Reached size p.start s.watermark
  allowed : Allowed time bound seen s.watermark
  late : s.late.Sublist (overdue time bound [] seen)

theorem inv_init : Inv time size bound [] .init where
  once := .refl _
  inside _ hp := absurd hp List.not_mem_nil
  filled _ hp := absurd hp List.not_mem_nil
  sorted := .nil
  inOrder _ hp := absurd hp List.not_mem_nil
  reached _ hp := absurd hp List.not_mem_nil
  allowed := Or.inl rfl
  late := .refl _

theorem Allowed.snoc {wm : Watermark} (h : Allowed time bound seen wm) (a : α) :
    Allowed time bound (seen ++ [a]) wm := by
  rcases h with h | ⟨b, hb, hle⟩
  · exact Or.inl h
  · exact Or.inr ⟨b, List.mem_append_left _ hb, hle⟩

/-- The side output takes the event. -/
theorem inv_late (hsize : 0 < size) (h : Inv time size bound seen s)
    (hlate : Reached size (windowStart size (time a)) s.watermark) :
    Inv time size bound (seen ++ [a]) { s with late := s.late ++ [a] } where
  once := by
    rw [← List.append_assoc]
    exact h.once.append_right [a]
  inside := h.inside
  filled := h.filled
  sorted := h.sorted
  inOrder p hp := (h.inOrder p hp).trans (List.sublist_append_left _ _)
  reached := h.reached
  allowed := h.allowed.snoc a
  late := by
    rw [overdue_snoc, List.nil_append, if_pos (overdue_of_reached hsize h.allowed hlate)]
    exact h.late.append (.refl _)

/-- A window takes the event. -/
theorem inv_added (h : Inv time size bound seen s)
    (hlate : ¬ Reached size (windowStart size (time a)) s.watermark) :
    Inv time size bound (seen ++ [a])
      { s with pending := addTo (windowStart size (time a)) a s.pending } where
  once := by
    have hadded := ((addTo_elements (windowStart size (time a)) a s.pending).append_left
      (s.outputs.flatMap Pane.elements)).append_right s.late
    have hcomm : (s.outputs.flatMap Pane.elements ++ (s.pending.flatMap Pane.elements ++ [a]) ++
        s.late).Perm ((s.outputs ++ s.pending).flatMap Pane.elements ++ s.late ++ [a]) := by
      simp only [List.flatMap_append, List.append_assoc]
      exact (List.perm_append_comm.append_left _).append_left _
    rw [List.flatMap_append]
    exact hadded.trans (hcomm.trans (h.once.append_right [a]))
  inside p hp b hb := by
    rcases List.mem_append.mp hp with hp | hp
    · exact h.inside p (List.mem_append_left _ hp) b hb
    · rcases mem_addTo hp with hp | rfl | ⟨q, hq, hstart, rfl⟩
      · exact h.inside p (List.mem_append_right _ hp) b hb
      · rw [List.mem_singleton.mp hb]
      · rcases List.mem_append.mp hb with hb | hb
        · exact (h.inside q (List.mem_append_right _ hq) b hb).trans hstart
        · rw [List.mem_singleton.mp hb]
  filled p hp := by
    rcases List.mem_append.mp hp with hp | hp
    · exact h.filled p (List.mem_append_left _ hp)
    · rcases mem_addTo hp with hp | rfl | ⟨q, _, _, rfl⟩
      · exact h.filled p (List.mem_append_right _ hp)
      · exact List.cons_ne_nil _ _
      · exact List.concat_ne_nil _ _
  sorted := by
    obtain ⟨houtputs, hpending, hcross⟩ := List.pairwise_append.mp h.sorted
    refine List.pairwise_append.mpr ⟨houtputs, addTo_sorted hpending, fun p hp q hq => ?_⟩
    rcases start_of_mem_addTo hq with hq | ⟨q', hq', hstart⟩
    · exact hq ▸ (h.reached p hp).lt hlate
    · exact hstart ▸ hcross p hp q' hq'
  inOrder p hp := by
    rcases List.mem_append.mp hp with hp | hp
    · exact (h.inOrder p (List.mem_append_left _ hp)).trans (List.sublist_append_left _ _)
    · rcases mem_addTo hp with hp | rfl | ⟨q, hq, _, rfl⟩
      · exact (h.inOrder p (List.mem_append_right _ hp)).trans (List.sublist_append_left _ _)
      · exact List.sublist_append_right _ _
      · exact (h.inOrder q (List.mem_append_right _ hq)).append (.refl _)
  reached := h.reached
  allowed := h.allowed.snoc a
  late := by
    rw [overdue_snoc]
    exact h.late.trans (List.sublist_append_left _ _)

theorem inv_event (hsize : 0 < size) (h : Inv time size bound seen s) (a : α) :
    Inv time size bound (seen ++ [a]) (s.onEvent time size a) := by
  unfold Operator.onEvent
  dsimp only
  split
  · rename_i hlate
    exact inv_late hsize h hlate
  · rename_i hlate
    exact inv_added h hlate

/-- A watermark only moves windows from the pending ones to the outputs. -/
theorem onWatermark_windows (s : Operator α) (wm : Watermark) :
    (s.onWatermark size wm).outputs ++ (s.onWatermark size wm).pending = s.outputs ++ s.pending := by
  simp only [Operator.onWatermark, List.append_assoc, List.takeWhile_append_dropWhile]

theorem inv_watermark (h : Inv time size bound seen s) {wm : Watermark} (hmono : s.watermark ≤ wm)
    (hwm : Allowed time bound seen wm) : Inv time size bound seen (s.onWatermark size wm) where
  once := by
    rw [onWatermark_windows]
    exact h.once
  inside := by
    rw [onWatermark_windows]
    exact h.inside
  filled := by
    rw [onWatermark_windows]
    exact h.filled
  sorted := by
    rw [onWatermark_windows]
    exact h.sorted
  inOrder := by
    rw [onWatermark_windows]
    exact h.inOrder
  reached p hp := by
    rcases List.mem_append.mp hp with hp | hp
    · exact (h.reached p hp).mono hmono
    · have htaken := List.mem_takeWhile_imp hp
      exact of_decide_eq_true htaken
  allowed := hwm
  late := h.late

/-- **Every run keeps the invariant.** -/
theorem run_inv (hsize : 0 < size) (h : Run time size bound seen s) :
    Inv time size bound seen s := by
  induction h with
  | start => exact inv_init
  | event _ a ih => exact inv_event hsize ih a
  | watermark _ wm hmono hwm ih => exact inv_watermark ih hmono hwm

end Invariant

/-! ## 5. After the final watermark -/

section Final

variable {time : α → Int} {size bound : Int} {seen : List α} {s : Operator α}

/-- The final watermark leaves no window. -/
theorem onWatermark_top (s : Operator α) : (s.onWatermark size ⊤).pending = [] :=
  List.dropWhile_eq_nil_iff.mpr fun _ _ => decide_eq_true le_top

/-- Every window that is output is the one of an event seen. -/
theorem run_window (hsize : 0 < size) (h : Run time size bound seen s) {p : Pane α}
    (hp : p ∈ (s.onWatermark size ⊤).outputs) : ∃ a ∈ seen, windowStart size (time a) = p.start := by
  have hinv := run_inv hsize h
  have hmem : p ∈ s.outputs ++ s.pending := by
    rw [← onWatermark_windows s ⊤]
    exact List.mem_append_left _ hp
  obtain ⟨a, ha⟩ := List.exists_mem_of_ne_nil _ (hinv.filled p hmem)
  exact ⟨a, (hinv.inOrder p hmem).subset ha, hinv.inside p hmem a ha⟩

end Final

/-! ## 6. The periodic generator -/

section Periodic

variable (time : α → Int) (size bound : Int)

/-- `max(maxTimestamp, timestamp)`, with none before the first event. -/
def maxTime (m : Option Int) (a : α) : Int := m.elim (time a) (max · (time a))

/-- An event, and the watermark that the bounded-out-of-orderness generator emits after it. -/
def periodic (g : Option Int × Operator α) (a : α) : Option Int × Operator α :=
  let m := maxTime time g.1 a
  (some m, (g.2.onEvent time size a).onWatermark size (atTime (m - bound - 1)))

variable {time size bound}

/-- What the generator keeps: its timestamp is one that was seen, and it emitted the watermark. -/
def Emitted (time : α → Int) (bound : Int) (seen : List α)
    (g : Option Int × Operator α) : Prop :=
  match g.1 with
  | none => g.2.watermark = ⊥
  | some m => (∃ b ∈ seen, m = time b) ∧ g.2.watermark = atTime (m - bound - 1)

theorem onEvent_watermark (s : Operator α) (a : α) :
    (s.onEvent time size a).watermark = s.watermark := by
  unfold Operator.onEvent
  dsimp only
  split <;> rfl

/-- The next watermark is no earlier, and stands for a timestamp that was seen. -/
theorem Emitted.next {seen : List α} {g : Option Int × Operator α}
    (h : Emitted time bound seen g) (a : α) :
    g.2.watermark ≤ atTime (maxTime time g.1 a - bound - 1) ∧
      ∃ b ∈ seen ++ [a], maxTime time g.1 a = time b := by
  obtain ⟨m, s⟩ := g
  cases m with
  | none =>
      have hbot : s.watermark = ⊥ := h
      exact ⟨hbot ▸ bot_le, a, List.mem_append_right _ List.mem_cons_self, rfl⟩
  | some m =>
      obtain ⟨⟨b, hb, hm⟩, hwm⟩ := h
      have hle : m ≤ max m (time a) := Int.le_max_left m (time a)
      refine ⟨?_, ?_⟩
      · rw [hwm]
        exact atTime_le.mpr (show m - bound - 1 ≤ max m (time a) - bound - 1 by omega)
      · rcases Int.le_total m (time a) with hlt | hlt
        · exact ⟨a, List.mem_append_right _ List.mem_cons_self, Int.max_eq_right hlt⟩
        · exact ⟨b, List.mem_append_left _ hb, (Int.max_eq_left hlt).trans hm⟩

theorem periodic_step {seen : List α} {g : Option Int × Operator α}
    (h : Run time size bound seen g.2 ∧ Emitted time bound seen g) (a : α) :
    Run time size bound (seen ++ [a]) (periodic time size bound g a).2 ∧
      Emitted time bound (seen ++ [a]) (periodic time size bound g a) := by
  obtain ⟨hrun, hemitted⟩ := h
  obtain ⟨hmono, b, hb, hmax⟩ := hemitted.next a
  rw [← @onEvent_watermark _ time size g.2 a] at hmono
  exact ⟨.watermark (.event hrun a) _ hmono (Or.inr ⟨b, hb, le_of_eq (by rw [hmax])⟩),
    ⟨b, hb, hmax⟩, rfl⟩

/-- **The periodic generator is an allowed schedule**, over any events; what it emits stands for one of
    them. -/
theorem periodic_keeps (seen : List α) :
    Run time size bound seen (seen.foldl (periodic time size bound) (none, .init)).2 ∧
      Emitted time bound seen (seen.foldl (periodic time size bound) (none, .init)) := by
  have hboth : ∀ (rest before : List α) (g : Option Int × Operator α),
      Run time size bound before g.2 ∧ Emitted time bound before g →
      Run time size bound (before ++ rest) (rest.foldl (periodic time size bound) g).2 ∧
        Emitted time bound (before ++ rest) (rest.foldl (periodic time size bound) g) := by
    intro rest
    induction rest with
    | nil =>
        intro before g h
        rw [List.append_nil]
        exact h
    | cons a rest ih =>
        intro before g h
        rw [List.append_cons]
        exact ih _ _ (periodic_step h a)
  exact hboth seen [] (none, .init) ⟨.start, rfl⟩

theorem periodic_run (seen : List α) :
    Run time size bound seen (seen.foldl (periodic time size bound) (none, .init)).2 :=
  (periodic_keeps seen).1

/-- The watermark of the generator: none yet, or an event's time, less the bound and one millisecond. -/
theorem periodic_watermark (seen : List α) :
    (seen.foldl (periodic time size bound) (none, .init)).2.watermark = ⊥ ∨ ∃ b ∈ seen,
      (seen.foldl (periodic time size bound) (none, .init)).2.watermark =
        atTime (time b - bound - 1) := by
  have hemitted : Emitted time bound seen (seen.foldl (periodic time size bound) (none, .init)) :=
    (periodic_keeps seen).2
  unfold Emitted at hemitted
  split at hemitted
  · exact Or.inl hemitted
  · obtain ⟨⟨b, hb, rfl⟩, hwm⟩ := hemitted
    exact Or.inr ⟨b, hb, hwm⟩

end Periodic

end Flink
