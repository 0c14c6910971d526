/-
  File:      BlogDemo/Operator/DeepCopy.lean
  Subject:   THE DEEP COPIES OF THE API TYPES (k8s-operator-example, zz_generated.deepcopy.go): objects in
             memory, with their pointers, and the functions that copy them.

  The metadata of objects and of lists, and how it is copied, is of the API machinery: its views are
  parameters, and that its copies are deep ones is assumed.

  * `MyCRDSpec.deepCopyInto`, `MyCRD.deepCopyInto`, `MyCRDList.deepCopyInto` and the `deepCopy` of each;
  * **`deepCopy_list_separate`** -- a copy of a list has its content, and nothing that is written
    through the one is seen through the other.
-/
import BlogDemo.Lib.GoHeap
import Mathlib.Data.Int.Basic

namespace Operator.DeepCopy

open Go

/-! ## 1. The types -/

structure TypeMeta where
  kind : String
  apiVersion : String
  deriving Inhabited

structure MyCRDSpec where
  replicas : Option Addr
  image : String
  deriving Inhabited

structure MyCRDStatus where
  availableReplicas : Int32
  deriving Inhabited

/-- With the metadata of an object. -/
structure MyCRD (M : Type) where
  typeMeta : TypeMeta
  objectMeta : M
  spec : MyCRDSpec
  status : MyCRDStatus
  deriving Inhabited

/-- With the metadata of a list. The items are a slice: nil, or an array. -/
structure MyCRDList (L : Type) where
  typeMeta : TypeMeta
  listMeta : L
  items : Option Addr
  deriving Inhabited

inductive Cell (M L X : Type) where
  | int32 (v : Int32)
  | mycrdSpec (s : MyCRDSpec)
  | mycrdStatus (s : MyCRDStatus)
  | mycrd (c : MyCRD M)
  | mycrds (items : List (MyCRD M))
  | mycrdList (l : MyCRDList L)
  /-- What the metadata consists of. -/
  | apimachinery (x : X)

variable {M L X : Type}

def Cell.toInt32 : Option (Cell M L X) → Int32
  | some (.int32 v) => v
  | _ => 0

def Cell.toSpec : Option (Cell M L X) → MyCRDSpec
  | some (.mycrdSpec s) => s
  | _ => default

def Cell.toStatus : Option (Cell M L X) → MyCRDStatus
  | some (.mycrdStatus s) => s
  | _ => default

def Cell.toMyCRD [Inhabited M] : Option (Cell M L X) → MyCRD M
  | some (.mycrd c) => c
  | _ => default

def Cell.toItems : Option (Cell M L X) → List (MyCRD M)
  | some (.mycrds items) => items
  | _ => []

def Cell.toList [Inhabited L] : Option (Cell M L X) → MyCRDList L
  | some (.mycrdList l) => l
  | _ => default

/-! ## 2. The copies -/

section Copy

-- how the API machinery copies metadata
variable (metaInto : Heap (Cell M L X) → M → Heap (Cell M L X) × M)
variable (listMetaInto : Heap (Cell M L X) → L → Heap (Cell M L X) × L)

def MyCRDSpec.deepCopyInto (h : Heap (Cell M L X)) (s : MyCRDSpec) : Heap (Cell M L X) × MyCRDSpec :=
  let out := copyPtr Cell.int32 Cell.toInt32 (fun _ => 0) Prod.mk h s.replicas
  (out.1, { s with replicas := out.2 })

def MyCRDStatus.deepCopyInto (h : Heap (Cell M L X)) (s : MyCRDStatus) :
    Heap (Cell M L X) × MyCRDStatus := (h, s)

def MyCRD.deepCopyInto (h : Heap (Cell M L X)) (c : MyCRD M) : Heap (Cell M L X) × MyCRD M :=
  let objectMeta := metaInto h c.objectMeta
  let spec := c.spec.deepCopyInto objectMeta.1
  (spec.1, { c with objectMeta := objectMeta.2, spec := spec.2 })

def MyCRDList.deepCopyInto [Inhabited M] (h : Heap (Cell M L X)) (l : MyCRDList L) :
    Heap (Cell M L X) × MyCRDList L :=
  let listMeta := listMetaInto h l.listMeta
  let items := copyPtr Cell.mycrds Cell.toItems (fun items => List.replicate items.length default)
    (copyList (MyCRD.deepCopyInto metaInto)) listMeta.1 l.items
  (items.1, { l with listMeta := listMeta.2, items := items.2 })

/-- `DeepCopy`: nil for nil, else a new object. -/
def MyCRDSpec.deepCopy (h : Heap (Cell M L X)) (p : Option Addr) : Heap (Cell M L X) × Option Addr :=
  copyPtr Cell.mycrdSpec Cell.toSpec (fun _ => default) MyCRDSpec.deepCopyInto h p

def MyCRDStatus.deepCopy (h : Heap (Cell M L X)) (p : Option Addr) :
    Heap (Cell M L X) × Option Addr :=
  copyPtr Cell.mycrdStatus Cell.toStatus (fun _ => default) MyCRDStatus.deepCopyInto h p

def MyCRD.deepCopy [Inhabited M] (h : Heap (Cell M L X)) (p : Option Addr) :
    Heap (Cell M L X) × Option Addr :=
  copyPtr Cell.mycrd Cell.toMyCRD (fun _ => default) (MyCRD.deepCopyInto metaInto) h p

def MyCRDList.deepCopy [Inhabited M] [Inhabited L] (h : Heap (Cell M L X)) (p : Option Addr) :
    Heap (Cell M L X) × Option Addr :=
  copyPtr Cell.mycrdList Cell.toList (fun _ => default)
    (MyCRDList.deepCopyInto metaInto listMetaInto) h p

end Copy

/-! ## 3. What the objects consist of -/

section Views

variable {VM VL : Type} (metaView : View (Cell M L X) M VM) (listMetaView : View (Cell M L X) L VL)

def specView : View (Cell M L X) MyCRDSpec (Option Int32 × String) :=
  ((View.plain.ptr Cell.toInt32).prod View.plain).comap fun s => (s.replicas, s.image)

def mycrdView : View (Cell M L X) (MyCRD M)
    (VM × (Option Int32 × String) × TypeMeta × MyCRDStatus) :=
  (metaView.prod (specView.prod View.plain)).comap fun c =>
    (c.objectMeta, c.spec, c.typeMeta, c.status)

def itemsView : View (Cell M L X) (Option Addr)
    (Option (List (VM × (Option Int32 × String) × TypeMeta × MyCRDStatus))) :=
  (mycrdView metaView).list.ptr Cell.toItems

def listView : View (Cell M L X) (MyCRDList L)
    (VL × Option (List (VM × (Option Int32 × String) × TypeMeta × MyCRDStatus)) × TypeMeta) :=
  (listMetaView.prod ((itemsView metaView).prod View.plain)).comap fun l =>
    (l.listMeta, l.items, l.typeMeta)

variable {metaView listMetaView}
variable {metaInto : Heap (Cell M L X) → M → Heap (Cell M L X) × M}
variable {listMetaInto : Heap (Cell M L X) → L → Heap (Cell M L X) × L}

/-- The copies of a function are deep ones. -/
def Deep {α β : Type} (V : View (Cell M L X) α β)
    (copyInto : Heap (Cell M L X) → α → Heap (Cell M L X) × α) : Prop :=
  ∀ h x, V.Valid h x → Copies V h x (copyInto h x).1 (copyInto h x).2

theorem deep_spec : Deep (specView (M := M) (L := L) (X := X)) MyCRDSpec.deepCopyInto := by
  intro h s hs
  have hreplicas : (View.plain.ptr Cell.toInt32).Valid h s.replicas := fun a ha => hs a (Or.inl ha)
  have hcopy : Copies (View.plain.ptr Cell.toInt32) h s.replicas (s.deepCopyInto h).1
      (s.deepCopyInto h).2.replicas :=
    copies_ptr (fun _ => rfl) (fun h x _ => copies_plain h x) hreplicas
  exact copies_comap (copies_prod (valid_plain h s.image) hcopy (copies_plain _ s.image))

theorem deep_mycrd (hmeta : Deep metaView metaInto) :
    Deep (mycrdView metaView) (MyCRD.deepCopyInto metaInto) := by
  intro h c hc
  have hobject : metaView.Valid h c.objectMeta := fun a ha => hc a (Or.inl ha)
  have hspec : specView.Valid h c.spec := fun a ha => hc a (Or.inr (Or.inl ha))
  have hrest : (specView.prod View.plain).Valid h
      (c.spec, c.typeMeta, c.status) := fun a ha => hc a (Or.inr ha)
  have hfirst := hmeta h c.objectMeta hobject
  have hsecond := deep_spec _ _ (hspec.mono hfirst.extend)
  exact copies_comap (copies_prod hrest hfirst
    (copies_prod (valid_plain _ _) hsecond (copies_plain _ (c.typeMeta, c.status))))

theorem deep_list [Inhabited M] (hmeta : Deep metaView metaInto)
    (hlist : Deep listMetaView listMetaInto) :
    Deep (listView metaView listMetaView) (MyCRDList.deepCopyInto metaInto listMetaInto) := by
  intro h l hl
  have hfirst := hlist h l.listMeta fun a ha => hl a (Or.inl ha)
  have hitems : (itemsView metaView).Valid h l.items := fun a ha => hl a (Or.inr (Or.inl ha))
  have hrest : ((itemsView metaView).prod View.plain).Valid h (l.items, l.typeMeta) :=
    fun a ha => hl a (Or.inr ha)
  have hsecond : Copies (itemsView metaView) (listMetaInto h l.listMeta).1 l.items
      (l.deepCopyInto metaInto listMetaInto h).1 (l.deepCopyInto metaInto listMetaInto h).2.items :=
    copies_ptr (fun _ => rfl) (fun h xs hxs => copies_list (deep_mycrd hmeta) hxs)
      (hitems.mono hfirst.extend)
  exact copies_comap (copies_prod hrest hfirst
    (copies_prod (valid_plain _ _) hsecond (copies_plain _ l.typeMeta)))

/-! ## 4. Nothing in common -/

/-- A list that is pointed to. -/
def listPtr [Inhabited L] (metaView : View (Cell M L X) M VM) (listMetaView : View (Cell M L X) L VL) :=
  (listView metaView listMetaView).ptr Cell.toList

/-- **The copy of a list has its content, and nothing in common with it**: however long it is, and nil
    or not at any place; whatever is written into the cells of the one, the other stays as it was. -/
theorem deepCopy_list_separate [Inhabited M] [Inhabited L] (hmeta : Deep metaView metaInto)
    (hlist : Deep listMetaView listMetaInto) {h : Heap (Cell M L X)} {p : Option Addr}
    (hp : (listPtr metaView listMetaView).Valid h p) :
    let out := MyCRDList.deepCopy metaInto listMetaInto h p
    let content := (listPtr metaView listMetaView).value h p
    (listPtr metaView listMetaView).value out.1 out.2 = content ∧
    (∀ g, (∀ a, a ∉ (listPtr metaView listMetaView).addrs out.1 out.2 → g.cells a = out.1.cells a) →
      (listPtr metaView listMetaView).value g p = content) ∧
    ∀ g, (∀ a, a ∉ (listPtr metaView listMetaView).addrs h p → g.cells a = out.1.cells a) →
      (listPtr metaView listMetaView).value g out.2 = content := by
  have hcopy : Copies (listPtr metaView listMetaView) h p
      (MyCRDList.deepCopy metaInto listMetaInto h p).1
      (MyCRDList.deepCopy metaInto listMetaInto h p).2 :=
    copies_ptr (fun _ => rfl) (deep_list hmeta hlist) hp
  exact ⟨hcopy.value, hcopy.separate hp⟩

/-! ## 5. A list of one object -/

/-- Metadata that is a map of labels. -/
abbrev DemoCell := Cell (Option Addr) String (List (String × String))

def DemoCell.labels : Option DemoCell → List (String × String)
  | some (.apimachinery labels) => labels
  | _ => []

def demoMetaView : View DemoCell (Option Addr) (Option (List (String × String))) :=
  View.plain.ptr DemoCell.labels

def demoMetaInto : Heap DemoCell → Option Addr → Heap DemoCell × Option Addr :=
  copyPtr Cell.apimachinery DemoCell.labels (fun _ => []) Prod.mk

theorem demo_deep : Deep demoMetaView demoMetaInto :=
  fun _ _ hp => copies_ptr (fun _ => rfl) (fun h x _ => copies_plain h x) hp

def demoHeap : Heap DemoCell where
  next := 4
  cells a := match a with
    | 0 => some (.int32 3)
    | 1 => some (.apimachinery [("app", "web")])
    | 2 => some (.mycrds [⟨⟨"MyCRD", "demo.example.com/v1alpha1"⟩, some 1, ⟨some 0, "nginx"⟩, ⟨0⟩⟩])
    | 3 => some (.mycrdList ⟨⟨"MyCRDList", "demo.example.com/v1alpha1"⟩, "7", some 2⟩)
    | _ => none

/-- A pointer to a plain value has one cell. -/
theorem addrs_plain {α : Type} {get : Option DemoCell → α} {h : Heap DemoCell} {b a : Addr}
    (ha : a ∈ (View.plain.ptr get).addrs h (some b)) : a = b := by
  obtain ⟨c, hc, ha⟩ := ha
  cases hc
  exact ha.resolve_right (Set.notMem_empty a)

theorem demo_valid : (listPtr demoMetaView View.plain).Valid demoHeap (some 3) := by
  intro a ha
  obtain ⟨b, hb, rfl | ha⟩ := ha
  · cases hb
    decide
  · cases hb
    rcases ha with ha | ha | ha
    · exact absurd ha (Set.notMem_empty a)
    · obtain ⟨b, hb, rfl | ha⟩ := ha
      · cases hb
        decide
      · cases hb
        obtain ⟨c, hc, ha⟩ := ha
        obtain rfl := List.mem_singleton.mp hc
        rcases ha with ha | (ha | ha) | ha
        · rw [addrs_plain ha]
          decide
        · rw [addrs_plain ha]
          decide
        · exact absurd ha (Set.notMem_empty a)
        · exact absurd ha (Set.notMem_empty a)
    · exact absurd ha (Set.notMem_empty a)

/-- The copy of a list of one object with labels and three replicas. -/
theorem deepCopy_list_separate_demo :
    let out := MyCRDList.deepCopy demoMetaInto Prod.mk demoHeap (some 3)
    (listPtr demoMetaView View.plain).value out.1 out.2 =
      (listPtr demoMetaView View.plain).value demoHeap (some 3) :=
  (deepCopy_list_separate demo_deep (fun h x _ => copies_plain h x) demo_valid).1

end Views

end Operator.DeepCopy
