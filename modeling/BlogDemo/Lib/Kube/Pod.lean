/-
  File:      BlogDemo/Lib/Kube/Pod.lean
  Subject:   PODS, AND THE JSON THE API SERVER SENDS OF THEM: the fields an admission policy looks at.

  A field that is `omitempty` is left out when it is the empty text, the empty list, the empty map
  or nil (`omitEmpty`). The three kinds of containers have their fields in common.
-/
import BlogDemo.Lib.Js

namespace CoreV1

open Js

/-! ## 1. The types -/

structure Capabilities where
  drop : List String := []

structure SecurityContext where
  privileged : Option Bool := none
  runAsNonRoot : Option Bool := none
  allowPrivilegeEscalation : Option Bool := none
  readOnlyRootFilesystem : Option Bool := none
  capabilities : Option Capabilities := none

/-- Quantities by resource name. -/
structure ResourceRequirements where
  requests : List (String × String) := []
  limits : List (String × String) := []

structure Container where
  name : String
  image : String
  resources : ResourceRequirements := {}
  securityContext : Option SecurityContext := none

/-- A volume; `hostPath` is the path on the host of a hostPath volume. -/
structure Volume where
  name : String
  hostPath : Option String := none

structure PodSecurityContext where
  seccompProfileType : Option String := none

structure Pod where
  name : String
  ns : String
  labels : List (String × String) := []
  securityContext : Option PodSecurityContext := none
  containers : List Container
  initContainers : List Container := []
  ephemeralContainers : List Container := []
  volumes : List Volume := []

/-! ## 2. The JSON -/

/-- An object of the fields that have a value. -/
def omitEmpty (fields : List (String × Option Json)) : Json :=
  .obj (fields.filterMap fun f => f.2.map (f.1, ·))

def ofText (s : String) : Option Json := if s = "" then none else some (.str s)

def ofList (xs : List Json) : Option Json := if xs = [] then none else some (.arr xs)

def ofMap (m : List (String × String)) : Option Json :=
  if m = [] then none else some (.obj (m.map fun e => (e.1, .str e.2)))

def Capabilities.toJson (c : Capabilities) : Json :=
  omitEmpty [("drop", ofList (c.drop.map .str))]

def SecurityContext.toJson (s : SecurityContext) : Json :=
  omitEmpty
    [("capabilities", s.capabilities.map (·.toJson)),
     ("privileged", s.privileged.map .bool),
     ("runAsNonRoot", s.runAsNonRoot.map .bool),
     ("readOnlyRootFilesystem", s.readOnlyRootFilesystem.map .bool),
     ("allowPrivilegeEscalation", s.allowPrivilegeEscalation.map .bool)]

def ResourceRequirements.toJson (r : ResourceRequirements) : Json :=
  omitEmpty [("limits", ofMap r.limits), ("requests", ofMap r.requests)]

def Container.toJson (c : Container) : Json :=
  omitEmpty
    [("name", some (.str c.name)),
     ("image", ofText c.image),
     ("resources", some c.resources.toJson),
     ("securityContext", c.securityContext.map (·.toJson))]

def Volume.toJson (v : Volume) : Json :=
  omitEmpty
    [("name", some (.str v.name)),
     ("hostPath", v.hostPath.map fun path => .obj [("path", .str path)])]

def PodSecurityContext.toJson (s : PodSecurityContext) : Json :=
  omitEmpty [("seccompProfile", s.seccompProfileType.map fun type => .obj [("type", .str type)])]

def Pod.metadata (p : Pod) : Json :=
  omitEmpty [("name", ofText p.name), ("namespace", ofText p.ns), ("labels", ofMap p.labels)]

def Pod.spec (p : Pod) : Json :=
  omitEmpty
    [("volumes", ofList (p.volumes.map (·.toJson))),
     ("initContainers", ofList (p.initContainers.map (·.toJson))),
     ("containers", some (.arr (p.containers.map (·.toJson)))),
     ("ephemeralContainers", ofList (p.ephemeralContainers.map (·.toJson))),
     ("securityContext", p.securityContext.map (·.toJson))]

def Pod.toJson (p : Pod) : Json :=
  omitEmpty [("metadata", some p.metadata), ("spec", some p.spec)]

/-! ## 3. Reading it -/

@[simp] theorem get?_omitEmpty_nil (key : String) : (omitEmpty []).get? key = none := rfl

/-- A field is read from the first entry of its name that has a value. -/
@[simp] theorem get?_omitEmpty_cons (k : String) (v : Option Json)
    (fields : List (String × Option Json)) (key : String) :
    (omitEmpty ((k, v) :: fields)).get? key =
      if key = k then v.or ((omitEmpty fields).get? key) else (omitEmpty fields).get? key := by
  cases v with
  | none => by_cases h : key = k <;> simp [omitEmpty, Json.get?, h]
  | some x =>
    by_cases h : key = k
    · simp [omitEmpty, Json.get?, h]
    · simp [omitEmpty, Json.get?, List.lookup_cons, beq_false_of_ne h, h]

theorem get?_ofMap (m : List (String × String)) (key : String) :
    (ofMap m).bind (·.get? key) = (m.lookup key).map .str := by
  have hlookup : (m.map fun e => (e.1, Json.str e.2)).lookup key = (m.lookup key).map .str := by
    induction m with
    | nil => rfl
    | cons e m ih =>
      obtain ⟨k, v⟩ := e
      simp only [List.map_cons, List.lookup_cons]
      cases key == k with
      | false => exact ih
      | true => rfl
  by_cases hm : m = []
  · subst hm
    rfl
  · simp only [ofMap, if_neg hm, Option.bind_some, Json.get?, hlookup]

variable (c : Container) (v : Volume) (p : Pod)

@[simp] theorem Container.get?_name : c.toJson.get? "name" = some (.str c.name) := by
  simp [Container.toJson]

@[simp] theorem Container.get?_image : c.toJson.get? "image" = ofText c.image := by
  simp [Container.toJson]

@[simp] theorem Container.get?_resources :
    c.toJson.get? "resources" = some c.resources.toJson := by
  simp [Container.toJson]

@[simp] theorem Container.get?_securityContext :
    c.toJson.get? "securityContext" = c.securityContext.map (·.toJson) := by
  simp [Container.toJson]

@[simp] theorem SecurityContext.get?_privileged (s : SecurityContext) :
    s.toJson.get? "privileged" = s.privileged.map .bool := by
  simp [SecurityContext.toJson]

@[simp] theorem Volume.get?_name : v.toJson.get? "name" = some (.str v.name) := by
  simp [Volume.toJson]

@[simp] theorem Volume.get?_hostPath :
    v.toJson.get? "hostPath" = v.hostPath.map fun path => .obj [("path", .str path)] := by
  simp [Volume.toJson]

@[simp] theorem Pod.get?_metadata : p.toJson.get? "metadata" = some p.metadata := by
  simp [Pod.toJson]

@[simp] theorem Pod.get?_spec : p.toJson.get? "spec" = some p.spec := by
  simp [Pod.toJson]

@[simp] theorem Pod.get?_labels : p.metadata.get? "labels" = ofMap p.labels := by
  simp [Pod.metadata]

@[simp] theorem Pod.get?_containers :
    p.spec.get? "containers" = some (.arr (p.containers.map (·.toJson))) := by
  simp [Pod.spec]

@[simp] theorem Pod.get?_initContainers :
    p.spec.get? "initContainers" = ofList (p.initContainers.map (·.toJson)) := by
  simp [Pod.spec]

@[simp] theorem Pod.get?_volumes :
    p.spec.get? "volumes" = ofList (p.volumes.map (·.toJson)) := by
  simp [Pod.spec]

@[simp] theorem Pod.get?_securityContext :
    p.spec.get? "securityContext" = p.securityContext.map (·.toJson) := by
  simp [Pod.spec]

end CoreV1
