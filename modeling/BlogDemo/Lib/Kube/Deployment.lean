/-
  File:      BlogDemo/Lib/Kube/Deployment.lean
  Subject:   DEPLOYMENTS AS THE API SERVER KEEPS THEM: their fields, the defaults the server fills in
             (`setDefaults`), and what it checks of an object it is sent (`valid`).

  A field that is left out is the empty string, the empty map or `none`, as in the Go types. The
  fields that are neither defaulted nor checked here are kept together in `rest`, by name.
-/
import BlogDemo.Lib.Kube.Meta
import BlogDemo.Lib.Kube.Names

namespace Kube

/-! ## 1. The types -/

structure ContainerPort where
  name : String := ""
  containerPort : Int32
  protocol : String := ""
  deriving DecidableEq

structure Container where
  name : String
  image : String
  ports : List ContainerPort := []
  imagePullPolicy : String := ""
  terminationMessagePath : String := ""
  terminationMessagePolicy : String := ""
  rest : StringMap := ∅
  deriving DecidableEq

structure PodSpec where
  containers : List Container
  restartPolicy : String := ""
  terminationGracePeriodSeconds : Option Int := none
  dnsPolicy : String := ""
  securityContext : Option StringMap := none
  schedulerName : String := ""
  rest : StringMap := ∅
  deriving DecidableEq

structure PodTemplateSpec where
  labels : StringMap := ∅
  annotations : StringMap := ∅
  spec : PodSpec := ⟨[], "", none, "", none, "", ∅⟩
  deriving DecidableEq

structure DeploymentStrategy where
  type : String := ""
  maxUnavailable : Option String := none
  maxSurge : Option String := none
  deriving DecidableEq

structure DeploymentSpec where
  replicas : Option Int32 := none
  selector : Option LabelSelector := none
  template : PodTemplateSpec := {}
  strategy : DeploymentStrategy := {}
  minReadySeconds : Int32 := 0
  revisionHistoryLimit : Option Int32 := none
  paused : Bool := false
  progressDeadlineSeconds : Option Int32 := none
  deriving DecidableEq

structure DeploymentStatus where
  availableReplicas : Int32 := 0
  deriving DecidableEq

structure Deployment where
  metadata : ObjectMeta
  spec : DeploymentSpec := {}
  status : DeploymentStatus := {}
  deriving DecidableEq

def Deployment.key (d : Deployment) : Key := d.metadata.key

/-! ## 2. Defaults -/

/-- A string field that is left out gets its default. -/
def orDefault (text default : String) : String := if text = "" then default else text

theorem orDefault_again (text default : String) (h : default ≠ "") :
    orDefault (orDefault text default) default = orDefault text default := by
  unfold orDefault
  by_cases ht : text = ""
  · rw [if_pos ht, if_neg h]
  · rw [if_neg ht, if_neg ht]

def ContainerPort.setDefaults (p : ContainerPort) : ContainerPort :=
  { p with protocol := orDefault p.protocol "TCP" }

/-- `latest image` says whether the image names the tag `latest`, or none. -/
def Container.setDefaults (latest : String → Bool) (c : Container) : Container :=
  { c with
    ports := c.ports.map ContainerPort.setDefaults
    imagePullPolicy :=
      orDefault c.imagePullPolicy (if latest c.image then "Always" else "IfNotPresent")
    terminationMessagePath := orDefault c.terminationMessagePath "/dev/termination-log"
    terminationMessagePolicy := orDefault c.terminationMessagePolicy "File" }

def PodSpec.setDefaults (latest : String → Bool) (s : PodSpec) : PodSpec :=
  { s with
    containers := s.containers.map (Container.setDefaults latest)
    restartPolicy := orDefault s.restartPolicy "Always"
    terminationGracePeriodSeconds := some (s.terminationGracePeriodSeconds.getD 30)
    dnsPolicy := orDefault s.dnsPolicy "ClusterFirst"
    securityContext := some (s.securityContext.getD ∅)
    schedulerName := orDefault s.schedulerName "default-scheduler" }

def DeploymentStrategy.setDefaults (s : DeploymentStrategy) : DeploymentStrategy :=
  if orDefault s.type "RollingUpdate" = "RollingUpdate" then
    ⟨"RollingUpdate", some (s.maxUnavailable.getD "25%"), some (s.maxSurge.getD "25%")⟩
  else s

/-- **What the server fills in** when an object is created or updated. -/
def Deployment.setDefaults (latest : String → Bool) (d : Deployment) : Deployment :=
  { d with
    spec := { d.spec with
      replicas := some (d.spec.replicas.getD 1)
      template := { d.spec.template with spec := d.spec.template.spec.setDefaults latest }
      strategy := d.spec.strategy.setDefaults
      revisionHistoryLimit := some (d.spec.revisionHistoryLimit.getD 10)
      progressDeadlineSeconds := some (d.spec.progressDeadlineSeconds.getD 600) } }

section Defaults

variable (latest : String → Bool)

theorem container_setDefaults_again (c : Container) :
    (c.setDefaults latest).setDefaults latest = c.setDefaults latest := by
  have hports : (c.ports.map ContainerPort.setDefaults).map ContainerPort.setDefaults =
      c.ports.map ContainerPort.setDefaults := by
    rw [List.map_map]
    refine List.map_congr_left fun p _ => ?_
    simp [ContainerPort.setDefaults, orDefault_again p.protocol "TCP" (by decide)]
  have hpolicy : (if latest c.image then "Always" else "IfNotPresent") ≠ "" := by
    split <;> decide
  unfold Container.setDefaults
  simp only [hports, orDefault_again _ _ hpolicy,
    orDefault_again c.terminationMessagePath "/dev/termination-log" (by decide),
    orDefault_again c.terminationMessagePolicy "File" (by decide)]

theorem podSpec_setDefaults_again (s : PodSpec) :
    (s.setDefaults latest).setDefaults latest = s.setDefaults latest := by
  have hcontainers : (s.containers.map (Container.setDefaults latest)).map
      (Container.setDefaults latest) = s.containers.map (Container.setDefaults latest) := by
    rw [List.map_map]
    exact List.map_congr_left fun c _ => container_setDefaults_again latest c
  unfold PodSpec.setDefaults
  simp only [hcontainers, Option.getD_some,
    orDefault_again s.restartPolicy "Always" (by decide),
    orDefault_again s.dnsPolicy "ClusterFirst" (by decide),
    orDefault_again s.schedulerName "default-scheduler" (by decide)]

theorem strategy_setDefaults_again (s : DeploymentStrategy) :
    s.setDefaults.setDefaults = s.setDefaults := by
  unfold DeploymentStrategy.setDefaults
  by_cases hs : orDefault s.type "RollingUpdate" = "RollingUpdate"
  · rw [if_pos hs]
    rfl
  · rw [if_neg hs, if_neg hs]

/-- **Defaults are filled in once.** -/
theorem setDefaults_again (d : Deployment) :
    (d.setDefaults latest).setDefaults latest = d.setDefaults latest := by
  unfold Deployment.setDefaults
  simp only [podSpec_setDefaults_again, strategy_setDefaults_again, Option.getD_some]

end Defaults

/-! ## 3. Validation -/

/-- White space as `strings.TrimSpace` cuts it off. -/
def isSpace (c : Char) : Bool :=
  [0x09, 0x0a, 0x0b, 0x0c, 0x0d, 0x20, 0x85, 0xa0, 0x1680, 0x2028, 0x2029, 0x202f, 0x205f,
    0x3000].contains c.toNat || (0x2000 ≤ c.toNat && c.toNat ≤ 0x200a)

/-- No white space around the text. -/
def isTrimmed (text : String) : Bool :=
  !(text.toList.head?.any isSpace) && !(text.toList.getLast?.any isSpace)

def Container.valid (c : Container) : Bool := c.image != "" && isTrimmed c.image

def replicasValid (replicas : Option Int32) : Bool :=
  match replicas with
  | some r => decide (0 ≤ r)
  | none => true

def labelValuesValid (labels : StringMap) : Bool :=
  decide (∀ k ∈ labels.keys, (labels.lookup k).all isValidLabelValue)

/-- A selector is required, selects something, and selects the pods of the template. -/
def selectorValid (selector : Option LabelSelector) (labels : StringMap) : Bool :=
  match selector with
  | some s => !s.isEmpty && s.matches labels
  | none => false

/-- **What the server checks of a Deployment.** -/
def Deployment.valid (d : Deployment) : Bool :=
  isValidName d.metadata.name && replicasValid d.spec.replicas &&
    selectorValid d.spec.selector d.spec.template.labels &&
    labelValuesValid d.spec.template.labels &&
    !d.spec.template.spec.containers.isEmpty &&
    d.spec.template.spec.containers.all Container.valid

/-- Filling in the defaults does not change what is checked. -/
theorem valid_setDefaults (latest : String → Bool) (d : Deployment) :
    (d.setDefaults latest).valid = d.valid := by
  have hreplicas : replicasValid (some (d.spec.replicas.getD 1)) = replicasValid d.spec.replicas := by
    cases d.spec.replicas with
    | some r => rfl
    | none => decide
  have hcontainer : ∀ c : Container, (c.setDefaults latest).valid = c.valid := fun _ => rfl
  have hcontainers : (d.spec.template.spec.containers.map (Container.setDefaults latest)).all
      Container.valid = d.spec.template.spec.containers.all Container.valid := by
    rw [List.all_map]
    rfl
  have hempty : (d.spec.template.spec.containers.map (Container.setDefaults latest)).isEmpty =
      d.spec.template.spec.containers.isEmpty := List.isEmpty_map
  simp only [Deployment.valid, Deployment.setDefaults, PodSpec.setDefaults, hreplicas, hcontainers,
    hempty]

end Kube
