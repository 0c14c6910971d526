/-
  File:      BlogDemo/Operator/Reconciler.lean
  Subject:   THE MyCRD OPERATOR (k8s-operator-example/go-operator): its custom resource, the part of
             the API server it talks to, and `Reconcile` as a program of API calls.

  * `MyCRD` -- the custom resource, as `api/v1alpha1/mycrd_types.go` declares it;
  * `Cluster` -- the custom resources and the Deployments, the latter as the server stores them:
    valid, with the defaults filled in;
  * `apply`, `effect` -- what an API call does, and what it may do when it fails. Nobody else writes
    between the calls of one run, so that reads are current and no write conflicts;
  * `mutate`, `reconcile` -- the controller.
-/
import BlogDemo.Lib.Keyed
import BlogDemo.Lib.Kube.Client
import BlogDemo.Lib.Kube.Deployment

namespace Operator

open Atomic Kube
open Prog (send)

/-! ## 1. The custom resource -/

structure MyCRDSpec where
  replicas : Option Int32 := none
  image : String := ""
  deriving DecidableEq

structure MyCRDStatus where
  availableReplicas : Int32 := 0
  deriving DecidableEq

/-- The custom resource, with what is read of its metadata. -/
structure MyCRD where
  name : String
  ns : String
  uid : String
  deletionTimestamp : Option String := none
  spec : MyCRDSpec := {}
  status : MyCRDStatus := {}
  deriving DecidableEq

namespace MyCRD

def key (my : MyCRD) : Key := ⟨my.ns, my.name⟩

/-- `<name>-deploy` -/
def deployName (my : MyCRD) : String := my.name ++ "-deploy"

def deployKey (my : MyCRD) : Key := ⟨my.ns, my.deployName⟩

def owner (my : MyCRD) : Owner := ⟨"demo.example.com/v1alpha1", "MyCRD", my.name, my.uid, my.ns⟩

def replicas (my : MyCRD) : Int32 := my.spec.replicas.getD 1

def image (my : MyCRD) : String := if my.spec.image = "" then "nginx:1.25.3" else my.spec.image

end MyCRD

/-- The labels of the pods of the custom resource `name`. -/
def labels (name : String) : StringMap := ((∅ : StringMap).insert "app" name).insert "mycrd" name

/-! ## 2. The cluster -/

/-- **The cluster**: `latest` says which images name the tag `latest`, or none. -/
@[ext] structure Cluster (latest : String → Bool) where
  mycrds : Keyed Key MyCRD fun my k => my.key = k
  deployments : Keyed Key Deployment fun d k =>
    d.key = k ∧ d.valid = true ∧ d.setDefaults latest = d

namespace Cluster

variable {latest : String → Bool}

def putMyCRD (c : Cluster latest) (my : MyCRD) : Cluster latest :=
  { c with mycrds := c.mycrds.put my.key my rfl }

/-- Store a valid object, with the defaults filled in. -/
def putDeployment (c : Cluster latest) (d : Deployment) (hd : d.valid = true) : Cluster latest :=
  { c with
    deployments := c.deployments.put d.key (d.setDefaults latest)
      ⟨rfl, (valid_setDefaults latest d).trans hd, setDefaults_again latest d⟩ }

variable {c : Cluster latest} {my : MyCRD} {d : Deployment} {hd : d.valid = true}

@[simp] theorem putMyCRD_deployments : (c.putMyCRD my).deployments = c.deployments := rfl

@[simp] theorem putDeployment_mycrds : (c.putDeployment d hd).mycrds = c.mycrds := rfl

theorem putMyCRD_get (k : Key) :
    (c.putMyCRD my).mycrds.get k = if k = my.key then some my else c.mycrds.get k :=
  Function.update_apply ..

theorem putDeployment_get (k : Key) : (c.putDeployment d hd).deployments.get k =
    if k = d.key then some (d.setDefaults latest) else c.deployments.get k :=
  Function.update_apply ..

theorem putDeployment_same (h : c.deployments.get d.key = some (d.setDefaults latest)) :
    c.putDeployment d hd = c := by
  ext1
  · rfl
  · exact Keyed.put_same (h := ⟨rfl, (valid_setDefaults latest d).trans hd,
      setDefaults_again latest d⟩) c.deployments h

theorem putMyCRD_same (h : c.mycrds.get my.key = some my) : c.putMyCRD my = c := by
  ext1
  · exact Keyed.put_same (h := rfl) c.mycrds h
  · rfl

end Cluster

/-- The calls of the controller. -/
inductive ApiCall where
  | getMyCRD (key : Key)
  | getDeployment (key : Key)
  | createDeployment (deploy : Deployment)
  | updateDeployment (deploy : Deployment)
  | updateStatus (my : MyCRD)

/-- What a call answers: objects are what they are asked for. -/
abbrev Content : ApiCall → Type
  | .getMyCRD key => { my : MyCRD // my.key = key }
  | .getDeployment key => { d : Deployment // d.key = key }
  | .createDeployment _ => Unit
  | .updateDeployment _ => Unit
  | .updateStatus _ => Unit

abbrev Answer (op : ApiCall) : Type := Except ApiError (Content op)

/-- The calls that create or update a Deployment. -/
def ApiCall.writesDeployment : ApiCall → Bool
  | .createDeployment _ => true
  | .updateDeployment _ => true
  | _ => false

/-- **What the API server does.** -/
def apply (latest : String → Bool) : Apply ApiCall Answer (Cluster latest)
  | .getMyCRD key, c =>
    match c.mycrds.find key with
    | some my => (.ok my, c)
    | none => (.error .notFound, c)
  | .getDeployment key, c =>
    match c.deployments.find key with
    | some d => (.ok ⟨d.1, d.2.1⟩, c)
    | none => (.error .notFound, c)
  | .createDeployment deploy, c =>
    -- the status of a new object is the controller's to report, not the client's
    if hd : ({ deploy with status := {} } : Deployment).valid = true then
      match c.deployments.get deploy.key with
      | some _ => (.error .alreadyExists, c)
      | none => (.ok (), c.putDeployment { deploy with status := {} } hd)
    else (.error .invalid, c)
  | .updateDeployment deploy, c =>
    match c.deployments.get deploy.key with
    | none => (.error .notFound, c)
    | some old =>
      if hd : ({ deploy with status := old.status } : Deployment).valid = true ∧
          deploy.spec.selector = old.spec.selector then
        (.ok (), c.putDeployment { deploy with status := old.status } hd.1)
      else (.error .invalid, c)
  | .updateStatus my, c =>
    -- the status subresource: whatever else the object says is ignored
    match c.mycrds.get my.key with
    | none => (.error .notFound, c)
    | some old => (.ok (), c.putMyCRD { old with status := my.status })

/-- The call itself failed. -/
def Failed (op : ApiCall) (r : Answer op) : Prop := ∃ m, r = .error (.failed m)

/-- **What an API call may do**: its effect, or a failure before or after it. -/
def effect (latest : String → Bool) : Effect ApiCall Answer (Cluster latest) :=
  Faulty (apply latest) Failed

/-- A call did not do what it was made for; that an object is not found is an answer. -/
def Fails (e : Made ApiCall Answer) : Prop := ∃ err, e.res = .error err ∧ err ≠ .notFound

theorem ok_not_fails {op : ApiCall} {r : Answer op} {x : Content op} (h : r = .ok x) :
    ¬ Fails ⟨op, r⟩ := by
  intro h'
  obtain ⟨err, herr, _⟩ := h'
  rw [h] at herr
  cases herr

theorem notFound_not_fails {op : ApiCall} {r : Answer op} (h : r = .error .notFound) :
    ¬ Fails ⟨op, r⟩ := by
  intro h'
  obtain ⟨err, herr, hne⟩ := h'
  rw [h] at herr
  cases herr
  exact hne rfl

/-! ## 3. The controller -/

abbrev Program (α : Type) := Prog ApiCall Answer α

def deployments : Client ApiCall Answer Deployment Deployment.key where
  get k := send (ApiCall.getDeployment k)
  create d := send (ApiCall.createDeployment d)
  update d := send (ApiCall.updateDeployment d)

/-- What the pods of the custom resource run. -/
def podSpec (my : MyCRD) : PodSpec :=
  { containers := [
      { name := "app", image := my.image, ports := [{ name := "http", containerPort := 80 }] }] }

/-- What `mutate` makes of the Deployment once the owner is set: the selector is kept. -/
def mutateSpec (my : MyCRD) (spec : DeploymentSpec) : DeploymentSpec :=
  { spec with
    selector := some (spec.selector.getD ⟨labels my.name, []⟩)
    replicas := some my.replicas
    template := { spec.template with labels := labels my.name, spec := podSpec my } }

/-- `mutate` -/
def mutate (my : MyCRD) (deploy : Deployment) : Except Err Deployment :=
  match setControllerReference my.owner deploy.metadata with
  | .error e => .error e
  | .ok metadata =>
    .ok { deploy with metadata := metadata, spec := mutateSpec my deploy.spec }

/-- The Deployment before it is read: its name and its namespace. -/
def frame (my : MyCRD) : Deployment := { metadata := { name := my.deployName, ns := my.ns } }

/-- The last part of `Reconcile`: the status, as far as the Deployment can be read again. -/
def reconcileStatus (my : MyCRD) : Program (Except Err Unit) := do
  match ← send (ApiCall.getDeployment my.deployKey) with
  | .error _ => return .ok ()
  | .ok fresh =>
    if my.status.availableReplicas ≠ fresh.1.status.availableReplicas then
      match ← send (ApiCall.updateStatus
          { my with status := ⟨fresh.1.status.availableReplicas⟩ }) with
      | .error e => return .error (.api e)
      | .ok _ => return .ok ()
    else return .ok ()

/-- `Reconcile`, from the custom resource on. -/
def reconcileMyCRD (my : MyCRD) : Program (Except Err Unit) := do
  match ← createOrUpdate deployments (frame my) (mutate my) with
  | .error e => return .error e
  | .ok _ => reconcileStatus my

/-- `MyCRDReconciler.Reconcile`; nothing is done for a custom resource that is gone. -/
def reconcile (req : Key) : Program (Except Err Unit) := do
  match ← send (ApiCall.getMyCRD req) with
  | .error .notFound => return .ok ()
  | .error e => return .error (.api e)
  | .ok my => reconcileMyCRD my.1

end Operator
