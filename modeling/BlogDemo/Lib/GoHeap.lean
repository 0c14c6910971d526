/-
  File:      BlogDemo/Lib/GoHeap.lean
  Subject:   VALUES IN MEMORY, AND DEEP COPIES OF THEM, as Go programs make them: what a value consists of
             beside itself, and when another has the same content and nothing in common with it.

  * `View` -- the cells and the content of values of a type; views of pairs, pointers and lists;
  * `Copies` -- a deep copy: the same content in new cells, and the old cells as they were;
  * **`Copies.separate`** -- writing through a copy does not change the original, nor the other way
    round;
  * `copies_prod`, `copies_ptr`, `copies_list` -- the copies of what a type is made of.
-/
import Mathlib.Data.Set.Lattice
import Mathlib.Logic.Function.Basic

namespace Go

/-! ## 1. Memory -/

abbrev Addr := Nat

/-- Cells, of which those below `next` are in use. -/
structure Heap (C : Type) where
  next : Addr
  cells : Addr → Option C

section Memory

variable {C : Type}

/-- `new`: the next cell. -/
def Heap.alloc (h : Heap C) (c : C) : Heap C where
  next := h.next + 1
  cells := Function.update h.cells h.next (some c)

def Heap.write (h : Heap C) (a : Addr) (c : C) : Heap C :=
  { h with cells := Function.update h.cells a (some c) }

/-- Nothing that was in use has changed. -/
structure Extends (h g : Heap C) : Prop where
  next : h.next ≤ g.next
  cells : ∀ a < h.next, g.cells a = h.cells a

variable {h g g' : Heap C}

theorem Extends.refl (h : Heap C) : Extends h h := ⟨Nat.le_refl _, fun _ _ => rfl⟩

theorem Extends.trans (h₁ : Extends h g) (h₂ : Extends g g') : Extends h g' where
  next := Nat.le_trans h₁.next h₂.next
  cells a ha := (h₂.cells a (Nat.lt_of_lt_of_le ha h₁.next)).trans (h₁.cells a ha)

theorem extends_alloc (h : Heap C) (c : C) : Extends h (h.alloc c) where
  next := Nat.le_succ _
  cells _ ha := Function.update_of_ne (Nat.ne_of_lt ha) _ _

/-- A new cell may be written. -/
theorem Extends.write (h₁ : Extends h g) {a : Addr} (ha : h.next ≤ a) (c : C) :
    Extends h (g.write a c) where
  next := h₁.next
  cells b hb := by
    have hne : b ≠ a := Nat.ne_of_lt (Nat.lt_of_lt_of_le hb ha)
    exact (Function.update_of_ne hne _ _).trans (h₁.cells b hb)

end Memory

/-! ## 2. Views -/

/-- The cells that a value consists of, and its content, which depends on no other cells. -/
structure View (C α β : Type) where
  addrs : Heap C → α → Set Addr
  value : Heap C → α → β
  frame : ∀ h g x, (∀ a ∈ addrs h x, g.cells a = h.cells a) →
    addrs g x = addrs h x ∧ value g x = value h x

section Views

variable {C α α' β β' : Type}

/-- A value that is all there is to it. -/
def View.plain : View C α α where
  addrs _ _ := ∅
  value _ x := x
  frame _ _ _ _ := ⟨rfl, rfl⟩

/-- A structure, by its fields. -/
def View.comap (f : α' → α) (V : View C α β) : View C α' β where
  addrs h x := V.addrs h (f x)
  value h x := V.value h (f x)
  frame h g x := V.frame h g (f x)

def View.prod (V : View C α β) (W : View C α' β') : View C (α × α') (β × β') where
  addrs h x := V.addrs h x.1 ∪ W.addrs h x.2
  value h x := (V.value h x.1, W.value h x.2)
  frame h g x hcells := by
    obtain ⟨haddrs, hvalue⟩ := V.frame h g x.1 fun a ha => hcells a (Or.inl ha)
    obtain ⟨haddrs', hvalue'⟩ := W.frame h g x.2 fun a ha => hcells a (Or.inr ha)
    rw [haddrs, haddrs', hvalue, hvalue']
    exact ⟨rfl, rfl⟩

/-- A pointer to a cell, in which `get` finds the value. -/
def View.ptr (get : Option C → α) (V : View C α β) : View C (Option Addr) (Option β) where
  addrs h p := {a | ∃ b, p = some b ∧ (a = b ∨ a ∈ V.addrs h (get (h.cells b)))}
  value h p := p.map fun b => V.value h (get (h.cells b))
  frame h g p hcells := by
    cases p with
    | none => simp
    | some b =>
        have hb : g.cells b = h.cells b := hcells b ⟨b, rfl, Or.inl rfl⟩
        obtain ⟨haddrs, hvalue⟩ :=
          V.frame h g (get (h.cells b)) fun a ha => hcells a ⟨b, rfl, Or.inr ha⟩
        refine ⟨?_, by simp only [Option.map_some, hb, hvalue]⟩
        ext a
        refine exists_congr fun c => and_congr_right fun hc => ?_
        cases hc
        rw [hb, haddrs]

/-- The elements of an array. -/
def View.list (V : View C α β) : View C (List α) (List β) where
  addrs h xs := {a | ∃ x ∈ xs, a ∈ V.addrs h x}
  value h xs := xs.map (V.value h)
  frame h g xs hcells := by
    have hframe : ∀ x ∈ xs, V.addrs g x = V.addrs h x ∧ V.value g x = V.value h x :=
      fun x hx => V.frame h g x fun a ha => hcells a ⟨x, hx, ha⟩
    refine ⟨?_, List.map_congr_left fun x hx => (hframe x hx).2⟩
    ext a
    refine exists_congr fun x => and_congr_right fun hx => ?_
    rw [(hframe x hx).1]

/-- The cells of the value are in use. -/
def View.Valid (V : View C α β) (h : Heap C) (x : α) : Prop := ∀ a ∈ V.addrs h x, a < h.next

/-! ## 3. Copies -/

/-- **A deep copy**: the content of `x`, in new cells. -/
structure Copies (V : View C α β) (h : Heap C) (x : α) (g : Heap C) (y : α) : Prop where
  extend : Extends h g
  value : V.value g y = V.value h x
  fresh : ∀ a ∈ V.addrs g y, h.next ≤ a ∧ a < g.next

variable {V : View C α β} {W : View C α' β'} {h g g' : Heap C} {x y : α}

/-- A value stays as it is while memory is only added to. -/
theorem View.Valid.frame (hx : V.Valid h x) (hext : Extends h g) :
    V.addrs g x = V.addrs h x ∧ V.value g x = V.value h x :=
  V.frame h g x fun a ha => hext.cells a (hx a ha)

theorem View.Valid.mono (hx : V.Valid h x) (hext : Extends h g) : V.Valid g x := by
  intro a ha
  rw [(hx.frame hext).1] at ha
  exact Nat.lt_of_lt_of_le (hx a ha) hext.next

theorem Copies.mono (hc : Copies V h x g y) (hext : Extends g g') : Copies V h x g' y := by
  have hy : V.Valid g y := fun a ha => (hc.fresh a ha).2
  obtain ⟨haddrs, hvalue⟩ := hy.frame hext
  refine ⟨hc.extend.trans hext, hvalue.trans hc.value, fun a ha => ?_⟩
  rw [haddrs] at ha
  exact ⟨(hc.fresh a ha).1, Nat.lt_of_lt_of_le (hc.fresh a ha).2 hext.next⟩

/-- A copy that is made later. -/
theorem Copies.later (hx : V.Valid h x) (hext : Extends h g) (hc : Copies V g x g' y) :
    Copies V h x g' y where
  extend := hext.trans hc.extend
  value := hc.value.trans (hx.frame hext).2
  fresh a ha := ⟨Nat.le_trans hext.next (hc.fresh a ha).1, (hc.fresh a ha).2⟩

/-- **Whatever is written into the cells of the copy** leaves the original as it was, and whatever is
    written into those of the original leaves the copy. -/
theorem Copies.separate (hx : V.Valid h x) (hc : Copies V h x g y) :
    (∀ g' : Heap C, (∀ a, a ∉ V.addrs g y → g'.cells a = g.cells a) →
      V.value g' x = V.value h x) ∧
    ∀ g' : Heap C, (∀ a, a ∉ V.addrs h x → g'.cells a = g.cells a) →
      V.value g' y = V.value h x := by
  constructor
  · intro g' hcells
    refine (V.frame h g' x fun a ha => ?_).2
    rw [hcells a fun hmem => absurd (hx a ha) (Nat.not_lt.mpr (hc.fresh a hmem).1)]
    exact hc.extend.cells a (hx a ha)
  · intro g' hcells
    refine ((V.frame g g' y fun a ha => ?_).2).trans hc.value
    exact hcells a fun hmem => absurd (hx a hmem) (Nat.not_lt.mpr (hc.fresh a ha).1)

/-! ## 4. How copies are made -/

theorem valid_plain (h : Heap C) (x : α) : View.plain.Valid h x :=
  fun a ha => absurd ha (Set.notMem_empty a)

theorem copies_plain (h : Heap C) (x : α) : Copies View.plain h x h x :=
  ⟨Extends.refl h, rfl, fun a ha => absurd ha (Set.notMem_empty a)⟩

theorem copies_comap {f : α' → α} {x y : α'} (hc : Copies V h (f x) g (f y)) :
    Copies (V.comap f) h x g y := ⟨hc.extend, hc.value, hc.fresh⟩

/-- One field after the other. -/
theorem copies_prod {x' y' : α'} (hx' : W.Valid h x') (hc : Copies V h x g y)
    (hc' : Copies W g x' g' y') : Copies (V.prod W) h (x, x') g' (y, y') := by
  have hfirst := hc.mono hc'.extend
  have hsecond := hc'.later hx' hc.extend
  refine ⟨hfirst.extend, Prod.ext hfirst.value hsecond.value, ?_⟩
  intro a ha
  rcases ha with ha | ha
  · exact hfirst.fresh a ha
  · exact hsecond.fresh a ha

/-- What a pointer points to is copied into a new cell; nil stays nil. -/
def copyPtr (put : α → C) (get : Option C → α) (zero : α → α) (copyInto : Heap C → α → Heap C × α)
    (h : Heap C) : Option Addr → Heap C × Option Addr
  | none => (h, none)
  | some p =>
    let a := h.next
    let h := h.alloc (put (zero (get (h.cells p))))
    let out := copyInto h (get (h.cells p))
    (out.1.write a (put out.2), some a)

/-- The copy of a value, put into the cell that was next. -/
theorem copies_new {put : α → C} {get : Option C → α} (hget : ∀ x, get (some (put x)) = x) {p : Addr}
    (hc : Copies V h (get (h.cells p)) g y) (hnext : h.next < g.next)
    (hne : ∀ a ∈ V.addrs g y, a ≠ h.next) :
    Copies (V.ptr get) h (some p) (g.write h.next (put y)) (some h.next) := by
  have hcell : (g.write h.next (put y)).cells h.next = some (put y) := Function.update_self _ _ _
  have hcells : ∀ a ∈ V.addrs g y, (g.write h.next (put y)).cells a = g.cells a :=
    fun a ha => Function.update_of_ne (hne a ha) _ _
  obtain ⟨haddrs, hvalue⟩ := V.frame g (g.write h.next (put y)) y hcells
  refine ⟨hc.extend.write (Nat.le_refl _) _, ?_, ?_⟩
  · show some (V.value _ (get ((g.write h.next (put y)).cells h.next))) = _
    rw [hcell, hget, hvalue, hc.value]
    rfl
  · intro a ha
    obtain ⟨b, hb, ha⟩ := ha
    cases hb
    rw [hcell, hget, haddrs] at ha
    rcases ha with rfl | ha
    · exact ⟨Nat.le_refl _, hnext⟩
    · exact hc.fresh a ha

theorem copies_ptr {put : α → C} {get : Option C → α} {zero : α → α}
    {copyInto : Heap C → α → Heap C × α} (hget : ∀ x, get (some (put x)) = x)
    (hcopy : ∀ h x, V.Valid h x → Copies V h x (copyInto h x).1 (copyInto h x).2) {p : Option Addr}
    (hp : (V.ptr get).Valid h p) : Copies (V.ptr get) h p (copyPtr put get zero copyInto h p).1
      (copyPtr put get zero copyInto h p).2 := by
  cases p with
  | none =>
      refine ⟨Extends.refl h, rfl, fun a ha => ?_⟩
      obtain ⟨b, hb, _⟩ := ha
      cases hb
  | some p =>
      have hlt : p < h.next := hp p ⟨p, rfl, Or.inl rfl⟩
      have hx : V.Valid h (get (h.cells p)) := fun a ha => hp a ⟨p, rfl, Or.inr ha⟩
      have hext := extends_alloc h (put (zero (get (h.cells p))))
      have hc := hcopy _ _ (hx.mono hext)
      -- the pointer is read after the new cell was taken
      have hread : (h.alloc (put (zero (get (h.cells p))))).cells p = h.cells p := hext.cells p hlt
      rw [copyPtr, hread]
      exact copies_new hget (hc.later hx hext) hc.extend.next
        fun a ha => Nat.ne_of_gt (hc.fresh a ha).1

def copyList (copyInto : Heap C → α → Heap C × α) (h : Heap C) : List α → Heap C × List α
  | [] => (h, [])
  | x :: xs =>
    let out := copyInto h x
    let rest := copyList copyInto out.1 xs
    (rest.1, out.2 :: rest.2)

theorem copies_list {copyInto : Heap C → α → Heap C × α}
    (hcopy : ∀ h x, V.Valid h x → Copies V h x (copyInto h x).1 (copyInto h x).2) {xs : List α}
    (hxs : V.list.Valid h xs) :
    Copies V.list h xs (copyList copyInto h xs).1 (copyList copyInto h xs).2 := by
  induction xs generalizing h with
  | nil => exact ⟨Extends.refl h, rfl, by rintro a ⟨x, hx, _⟩; cases hx⟩
  | cons x xs ih =>
      have hx : V.Valid h x := fun a ha => hxs a ⟨x, List.mem_cons_self, ha⟩
      have hrest : V.list.Valid h xs := by
        rintro a ⟨y, hy, ha⟩
        exact hxs a ⟨y, List.mem_cons_of_mem x hy, ha⟩
      have hc := hcopy h x hx
      have hcs := ih (hrest.mono hc.extend)
      have hfirst := hc.mono hcs.extend
      have hsecond := hcs.later hrest hc.extend
      refine ⟨hfirst.extend, ?_, ?_⟩
      · exact congrArg₂ List.cons hfirst.value hsecond.value
      · rintro a ⟨y, hy, ha⟩
        rcases List.mem_cons.mp hy with rfl | hy
        · exact hfirst.fresh a ha
        · exact hsecond.fresh a ⟨y, hy, ha⟩

end Views

end Go
