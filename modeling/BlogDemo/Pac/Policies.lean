/-
  File:      BlogDemo/Pac/Policies.lean
  Subject:   THE POLICY SET OF NAMESPACE demo-pac: the four Gatekeeper templates with their
             constraints, and the three Kyverno policies that validate.

  A request is admitted when no constraint reports a violation and no policy that enforces fails.
  The Kyverno policies that add a label, and that generate a quota and a limit range, deny nothing.
-/
import BlogDemo.Lib.Admission

namespace Pac

open Js Admission Rego

/-! ## 1. The Gatekeeper templates -/

/-- `all_containers`, the same rule in two of the templates. -/
def allContainers (object : Json) : List Json :=
  each (ref object ["spec", "containers"]) ++ each (ref object ["spec", "initContainers"])

/-- The body of `violation`, for one container. -/
def privilegedViolation (c : Json) : Option Violation :=
  if ref c ["securityContext", "privileged"] = some (.bool true) then
    (ref c ["name"]).map fun cname =>
      { msg := ("Privileged mode is not allowed for container: %v", [cname])
        details := .obj [("container", cname)] }
  else none

def k8sDisallowPrivileged (object : Json) : List Violation :=
  (allContainers object).filterMap privilegedViolation

/-- The body of `violation`, for one volume. -/
def hostPathViolation (v : Json) : Option Violation :=
  if satisfied (ref v ["hostPath"]) then
    (ref v ["name"]).map fun vname =>
      { msg := ("HostPath volumes are not allowed: %v", [vname])
        details := .obj [("volume", vname)] }
  else none

def k8sDisallowHostPath (object : Json) : List Violation :=
  (each (ref object ["spec", "volumes"])).filterMap hostPathViolation

def isTagless (image : Json) : Bool := !contains image ":" && !contains image "@sha256:"

def isLatest (image : Json) : Bool := endswith image ":latest"

def k8sDisallowLatest (object : Json) : List Violation :=
  let images := (allContainers object).filterMap (ref · ["image"])
  (images.filter isTagless).map (fun image =>
    { msg := ("Required image tag is missing for image: %v", [image])
      details := .obj [("image", image)] }) ++
  (images.filter isLatest).map (fun image =>
    { msg := ("Image tag 'latest' is not allowed: %v", [image])
      details := .obj [("image", image)] })

/-- `labels` is the constraint's parameter; `missing` is a set. -/
def k8sRequiredLabels (labels : List String) (object : Json) : List Violation :=
  let missing := labels.dedup.filter fun l => !satisfied (ref object ["metadata", "labels", l])
  if missing.length > 0 then
    [{ msg := ("Missing required labels: %v", [.arr (missing.map .str)])
       details := .obj [("missing", .arr (missing.map .str))] }]
  else []

/-! ## 2. The constraints -/

/-- All four match the pods of the namespace. -/
def podConstraint (name : String) (violation : Json → List Violation) : Constraint where
  name := name
  apiGroups := [""]
  kinds := ["Pod"]
  namespaces := ["demo-pac"]
  violation := violation

def demoRequiredLabels := podConstraint "demo-required-labels" (k8sRequiredLabels ["app", "owner"])
def demoDisallowLatest := podConstraint "demo-disallow-latest" k8sDisallowLatest
def demoDisallowPrivileged := podConstraint "demo-disallow-privileged" k8sDisallowPrivileged
def demoDisallowHostpath := podConstraint "demo-disallow-hostpath" k8sDisallowHostPath

def constraints : List Constraint :=
  [demoRequiredLabels, demoDisallowLatest, demoDisallowPrivileged, demoDisallowHostpath]

/-! ## 3. The Kyverno policies -/

/-- What the pattern asks of a container's `securityContext`. -/
def securityContextPattern : List (String × Pattern) :=
  [("runAsNonRoot", .scalar (.bool true)),
   ("allowPrivilegeEscalation", .scalar (.bool false)),
   ("readOnlyRootFilesystem", .scalar (.bool true)),
   ("capabilities", .map [("drop", .eachScalar (.text "ALL"))])]

def requirePodSecurityBaseline : ClusterPolicy where
  name := "require-pod-security-baseline"
  validationFailureAction := .Enforce
  rules :=
    [{ name := "require-seccomp-and-nonroot"
       kinds := ["Pod"]
       namespaces := ["demo-pac"]
       message := "Pod must comply with Pod Security Baseline: seccompProfile set to " ++
         "RuntimeDefault, runAsNonRoot true, no privilege escalation, " ++
         "readOnlyRootFilesystem true, drop all capabilities."
       pattern :=
         [("spec", .map
           [("securityContext", .map
              [("seccompProfile", .map [("type", .scalar (.text "RuntimeDefault"))])]),
            ("containers", .eachMap [("securityContext", .map securityContextPattern)])])] }]

/-- CPU and memory, both stated. -/
def cpuAndMemory : List (String × Pattern) :=
  [("cpu", .scalar (.text "?*")), ("memory", .scalar (.text "?*"))]

def requireRequestsLimits : ClusterPolicy where
  name := "require-requests-limits"
  validationFailureAction := .Enforce
  rules :=
    [{ name := "require-cpu-mem-requests-limits"
       kinds := ["Pod"]
       namespaces := ["demo-pac"]
       message := "Need to specify CPU and Memory requests and limits for all containers."
       pattern :=
         [("spec", .map
           [("containers", .eachMap
              [("resources", .map
                [("requests", .map cpuAndMemory), ("limits", .map cpuAndMemory)])])])] }]

def restrictServiceLoadbalancer : ClusterPolicy where
  name := "restrict-service-loadbalancer"
  validationFailureAction := .Enforce
  rules :=
    [{ name := "block-loadbalancer-services"
       kinds := ["Service"]
       namespaces := ["demo-pac"]
       message := "LoadBalancer type Services are not allowed in this namespace."
       pattern := [("spec", .map [("type", .scalar (.unless "LoadBalancer"))])] }]

def clusterPolicies : List ClusterPolicy :=
  [requirePodSecurityBaseline, requireRequestsLimits, restrictServiceLoadbalancer]

/-! ## 4. Admission -/

/-- No constraint reports a violation, and no enforced policy denies the request. -/
structure Admits (r : Review) : Prop where
  gatekeeper : ∀ c ∈ constraints, c.violations r = []
  kyverno : ∀ p ∈ clusterPolicies, p.denials r = []

end Pac
