/-
  File:      BlogDemo/Lib/Kube/Meta.lean
  Subject:   LABELS, SELECTORS AND OWNERS of Kubernetes objects: which labels a selector matches, and
             `controllerutil.SetControllerReference`, by which an object gets its one controller.

  * `LabelSelector.matches` -- matchLabels and matchExpressions, all of them;
  * `referSameObject` -- two owner references are the same by group, kind and name;
  * `setControllerReference` -- refused when another object is the controller
    (`setController_refused`); otherwise the owner is the controller after it
    (`upsert_controller`), and doing it twice is doing it once (`upsert_again`).
-/
import Mathlib.Data.Finmap

namespace Kube

/-! ## 1. Labels and selectors -/

/-- `map[string]string` -/
abbrev StringMap := Finmap fun _ : String => String

inductive SelectorOperator where
  | In
  | NotIn
  | Exists
  | DoesNotExist
  deriving DecidableEq, Repr

structure LabelSelectorRequirement where
  key : String
  operator : SelectorOperator
  values : List String
  deriving DecidableEq, Repr

def LabelSelectorRequirement.matches (r : LabelSelectorRequirement) (labels : StringMap) : Bool :=
  match r.operator, labels.lookup r.key with
  | .In, some v => r.values.contains v
  | .In, none => false
  | .NotIn, some v => !r.values.contains v
  | .NotIn, none => true
  | .Exists, v => v.isSome
  | .DoesNotExist, v => v.isNone

structure LabelSelector where
  matchLabels : StringMap
  matchExpressions : List LabelSelectorRequirement
  deriving DecidableEq

def LabelSelector.matches (s : LabelSelector) (labels : StringMap) : Bool :=
  decide (∀ k ∈ s.matchLabels.keys, labels.lookup k = s.matchLabels.lookup k) &&
    s.matchExpressions.all (·.matches labels)

/-- A selector that requires nothing. -/
def LabelSelector.isEmpty (s : LabelSelector) : Bool :=
  decide (s.matchLabels = ∅) && s.matchExpressions.isEmpty

/-- A selector of labels alone matches the maps that extend them. -/
theorem matches_labels {labels labels' : StringMap} :
    LabelSelector.matches ⟨labels, []⟩ labels' = true ↔
      ∀ k v, labels.lookup k = some v → labels'.lookup k = some v := by
  simp only [LabelSelector.matches, List.all_nil, Bool.and_true, decide_eq_true_eq]
  constructor
  · intro h k v hk
    rw [h k (Finmap.mem_keys.mpr (Finmap.mem_of_lookup_eq_some hk)), hk]
  · intro h k hk
    obtain ⟨v, hv⟩ := Finmap.mem_iff.mp (Finmap.mem_keys.mp hk)
    rw [h k v hv, hv]

/-! ## 2. Objects and their owners -/

structure OwnerReference where
  apiVersion : String
  kind : String
  name : String
  uid : String
  controller : Option Bool := none
  blockOwnerDeletion : Option Bool := none
  deriving DecidableEq, Repr

/-- What is read of an object's metadata. -/
structure ObjectMeta where
  name : String
  ns : String
  labels : StringMap := ∅
  annotations : StringMap := ∅
  ownerReferences : List OwnerReference := []
  deriving DecidableEq

/-- The namespace and the name of an object. -/
structure Key where
  ns : String
  name : String
  deriving DecidableEq, Repr

def ObjectMeta.key (m : ObjectMeta) : Key := ⟨m.ns, m.name⟩

/-- The group of an apiVersion, `group/version` or `version`; none for anything else. -/
def groupOf (apiVersion : String) : Option (List Char) :=
  match apiVersion.toList.splitOn '/' with
  | [_] => some []
  | [group, _] => some group
  | _ => none

def referSameObject (a b : OwnerReference) : Bool :=
  match groupOf a.apiVersion, groupOf b.apiVersion with
  | some g, some g' => g == g' && a.kind == b.kind && a.name == b.name
  | _, _ => false

def isController (r : OwnerReference) : Bool := r.controller == some true

/-- `metav1.GetControllerOf` -/
def getControllerOf (refs : List OwnerReference) : Option OwnerReference := refs.find? isController

/-- An object as an owner. -/
structure Owner where
  apiVersion : String
  kind : String
  name : String
  uid : String
  ns : String

def Owner.controllerRef (o : Owner) : OwnerReference :=
  ⟨o.apiVersion, o.kind, o.name, o.uid, some true, some true⟩

/-- What an API call is refused with: `failed` is any failure of the call itself. -/
inductive ApiError where
  | notFound
  | alreadyExists
  | invalid
  | failed (message : String)
  deriving DecidableEq, Repr

/-- The errors of the client library. -/
inductive Err where
  | api (e : ApiError)
  | alreadyOwned (name : String) (owner : OwnerReference)
  | clusterScoped
  | crossNamespace
  | keyChanged
  deriving DecidableEq, Repr

def validateOwner (o : Owner) (m : ObjectMeta) : Except Err Unit :=
  if o.ns = "" then .ok ()
  else if m.ns = "" then .error .clusterScoped
  else if o.ns ≠ m.ns then .error .crossNamespace
  else .ok ()

def upsertOwnerRef (ref : OwnerReference) : List OwnerReference → List OwnerReference
  | [] => [ref]
  | r :: rs => if referSameObject r ref then ref :: rs else r :: upsertOwnerRef ref rs

/-- Another object is the controller. -/
def controlledByOther (ref : OwnerReference) (refs : List OwnerReference) : Bool :=
  match getControllerOf refs with
  | some existing => !referSameObject existing ref
  | none => false

/-- `controllerutil.SetControllerReference` -/
def setControllerReference (o : Owner) (m : ObjectMeta) : Except Err ObjectMeta :=
  match validateOwner o m with
  | .error e => .error e
  | .ok () =>
    match getControllerOf m.ownerReferences with
    | some existing =>
      if referSameObject existing o.controllerRef then
        .ok { m with ownerReferences := upsertOwnerRef o.controllerRef m.ownerReferences }
      else .error (.alreadyOwned m.name existing)
    | none => .ok { m with ownerReferences := upsertOwnerRef o.controllerRef m.ownerReferences }

section Owners

variable {ref : OwnerReference} {refs : List OwnerReference} {o : Owner} {m m' : ObjectMeta}

theorem upsert_again (hself : referSameObject ref ref = true) :
    upsertOwnerRef ref (upsertOwnerRef ref refs) = upsertOwnerRef ref refs := by
  induction refs with
  | nil => rw [upsertOwnerRef, upsertOwnerRef, if_pos hself]
  | cons r rs ih =>
      by_cases hr : referSameObject r ref = true
      · rw [upsertOwnerRef, if_pos hr, upsertOwnerRef, if_pos hself]
      · rw [upsertOwnerRef, if_neg hr, upsertOwnerRef, if_neg hr, ih]

/-- Unless another object is the controller, the reference is the controller after it. -/
theorem upsert_controller (hc : isController ref = true)
    (hother : controlledByOther ref refs = false) :
    getControllerOf (upsertOwnerRef ref refs) = some ref := by
  induction refs with
  | nil => simp [upsertOwnerRef, getControllerOf, hc]
  | cons r rs ih =>
      by_cases hr : referSameObject r ref = true
      · simp [upsertOwnerRef, hr, getControllerOf, hc]
      · -- so `r` is not the controller, and the others have none but the reference
        have hnot : isController r = false := by
          by_contra hr'
          rw [Bool.not_eq_false] at hr'
          simp [controlledByOther, getControllerOf, hr', hr] at hother
        have hrest : controlledByOther ref rs = false := by
          simpa [controlledByOther, getControllerOf, hnot] using hother
        have := ih hrest
        simpa [upsertOwnerRef, hr, getControllerOf, hnot] using this

theorem setController_ok (hns : o.ns = m.ns)
    (hother : controlledByOther o.controllerRef m.ownerReferences = false) :
    setControllerReference o m =
      .ok { m with ownerReferences := upsertOwnerRef o.controllerRef m.ownerReferences } := by
  have hv : validateOwner o m = .ok () := by
    unfold validateOwner
    by_cases hn : o.ns = ""
    · rw [if_pos hn]
    · rw [if_neg hn, if_neg (hns ▸ hn), if_neg (not_not_intro hns)]
  unfold setControllerReference
  rw [hv]
  unfold controlledByOther at hother
  cases hg : getControllerOf m.ownerReferences with
  | none => rfl
  | some existing =>
      rw [hg] at hother
      simp only [Bool.not_eq_false'] at hother
      simp only [hother, if_true]

theorem setController_refused
    (hother : controlledByOther o.controllerRef m.ownerReferences = true) :
    ∃ e, setControllerReference o m = .error e := by
  unfold setControllerReference
  cases validateOwner o m with
  | error e => exact ⟨e, rfl⟩
  | ok _ =>
      unfold controlledByOther at hother
      cases hg : getControllerOf m.ownerReferences with
      | none => rw [hg] at hother; cases hother
      | some existing =>
          rw [hg] at hother
          have hsame : referSameObject existing o.controllerRef = false := by simpa using hother
          simp only [hsame]
          exact ⟨_, rfl⟩

end Owners

end Kube
