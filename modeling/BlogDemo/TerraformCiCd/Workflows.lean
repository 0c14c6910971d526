/-
  File:      BlogDemo/TerraformCiCd/Workflows.lean
  Subject:   THE WORKFLOWS THAT PLAN AND APPLY (terraform-ci-cd, .github/workflows and terraform): any
             number of runs of them, of any commits, side by side.

  A runner begins with a checkout. No backend is configured and `*.tfstate` is ignored by git, so a
  checkout has no state; the state that an apply leaves goes with its runner.

  * `terraformPlan`, `terraformApply` -- the two workflows; `site` -- the configuration of the site;
  * `Commit.StandsAlone` -- what is asked of the commits: no state, and parts of own objects only;
  * **`untouched`** -- nothing that is there is ever changed or removed by them;
  * **`applied_lasting`** -- an apply that succeeds has made all that the planned commit declares, and
    of those whose commits declare the same name only one succeeds.
-/
import BlogDemo.Lib.Terraform

namespace TerraformCiCd

open Atomic Terraform

/-! ## 1. The runner -/

/-- A type of resources and a name. -/
abbrev Name := String × String

/-- Arguments by their paths, as the files give them. -/
abbrev Args := List (String × String)

abbrev TfConfig := Terraform.Config String Name String Args

abbrev TfState := Terraform.State String Name String Args

abbrev TfAction := Terraform.Action String Name String Args

abbrev TfCloud := Terraform.Cloud Name String Args

/-- What Terraform reads of a commit: its configuration, and the state it begins with, of a file in
    the commit or of what its configuration imports. A backend, which would keep a state between the
    runs, is configured by none. -/
structure Commit where
  config : TfConfig
  state : TfState

/-- **A commit that brings no state** and puts parts to its own objects only. -/
structure Commit.StandsAlone (commit : Commit) : Prop where
  state : commit.state = []
  config : commit.config.SelfContained

/-- `tfplan`: what is to be done, and the state it was planned over. -/
structure PlanFile where
  actions : List TfAction
  prior : TfState

structure Artifact where
  tfplan : PlanFile
  planSha : String

def Commit.artifact (commit : Commit) (sha : String) : Artifact :=
  ⟨⟨plan commit.config.resources commit.state, commit.state⟩, sha⟩

/-- The calls to GitHub. -/
inductive Host (ι : Type) where
  | checkout (ref : String)
  | uploadArtifact (run : ι) (artifact : Artifact)
  | downloadArtifact (run : ι)

abbrev Host.Out {ι : Type} : Host ι → Type
  | .checkout _ => Commit
  | .uploadArtifact _ _ => Unit
  | .downloadArtifact _ => Artifact

abbrev Host.Res {ι : Type} (h : Host ι) : Type := Except Refusal h.Out

inductive Outcome where
  | planned
  | applied
  | failed
  deriving DecidableEq

abbrev Workflow (ι : Type) := Prog (Op Name String Args (Host ι)) (Op.Res Host.Res) Outcome

variable {ι : Type}

/-- The job `terraform-plan` of the run `run`. -/
def terraformPlan (run : ι) (githubSha : String) : Workflow ι :=
  .call (.host (.checkout githubSha)) fun answer => match answer with
    | .error _ => .ret .failed
    | .ok commit =>
      .call (.host (.uploadArtifact run (commit.artifact githubSha))) fun answer => match answer with
        | .error _ => .ret .failed
        | .ok _ => .ret .planned

def finished (_ : TfState) (failed : List String) : Outcome :=
  if failed.isEmpty then .applied else .failed

/-- The order in which an apply comes to the actions of a plan. -/
structure Walk where
  order : List TfAction → List TfAction
  perm : ∀ actions, (order actions).Perm actions

def Walk.asPlanned : Walk := ⟨fun actions => actions, fun _ => .refl _⟩

/-- The job `terraform-apply`: a plan over another state is stale. -/
def terraformApply (planRunId : ι) (walk : Walk) : Workflow ι :=
  .call (.host (.downloadArtifact planRunId)) fun answer => match answer with
    | .error _ => .ret .failed
    | .ok artifact =>
      .call (.host (.checkout artifact.planSha)) fun answer => match answer with
        | .error _ => .ret .failed
        | .ok commit =>
          if artifact.tfplan.prior = commit.state then
            applyPlan finished (walk.order artifact.tfplan.actions) commit.state []
          else .ret .failed

inductive Job (ι : Type) where
  | plan (githubSha : String)
  | apply (planRunId : ι) (walk : Walk)

def Job.workflow (run : ι) : Job ι → Workflow ι
  | .plan githubSha => terraformPlan run githubSha
  | .apply planRunId walk => terraformApply planRunId walk

/-! ## 2. Runs -/

section Machine

variable [DecidableEq ι] (repo : String → Option Commit)

abbrev Artifacts (ι : Type) := ι → Option Artifact

def hostExec : Apply (Host ι) Host.Res (Artifacts ι)
  | .checkout ref, w => match repo ref with
    | some commit => (.ok commit, w)
    | none => (.error .notFound, w)
  | .uploadArtifact run artifact, w => match w run with
    | some _ => (.error .alreadyExists, w)
    | none => (.ok (), Function.update w run (some artifact))
  | .downloadArtifact run, w => match w run with
    | some artifact => (.ok artifact, w)
    | none => (.error .notFound, w)

/-- A call may fail; so does the download of an artifact that has expired. -/
def hostFault (h : Host ι) (r : Host.Res h) : Prop := ∃ e, r = .error e

abbrev Store (ι : Type) := TfCloud × Artifacts ι

def exec : Apply (Op Name String Args (Host ι)) (Op.Res Host.Res) (Store ι) :=
  Terraform.exec (hostExec repo)

abbrev effect : Effect (Op Name String Args (Host ι)) (Op.Res Host.Res) (Store ι) :=
  Terraform.effect (hostExec repo) hostFault

abbrev Machine (ι : Type) :=
  Atomic.Config ι (Op Name String Args (Host ι)) (Op.Res Host.Res) Outcome (Store ι)

/-- No plan has been made yet; there may be objects of others. -/
def start (cloud : TfCloud) (jobs : ι → Job ι) : Machine ι :=
  .init (cloud, fun _ => none) fun i => (jobs i).workflow i

end Machine

section Calls

variable [DecidableEq ι] {repo : String → Option Commit} {s s' : Store ι}

theorem effect_checkout {ref : String} {r : Except Refusal Commit}
    (he : effect repo (.host (.checkout ref)) s r s') :
    s' = s ∧ ∀ commit, r = .ok commit → repo ref = some commit := by
  have hexec : (exec repo (.host (.checkout ref)) s).2 = s ∧ ∀ commit,
      (exec repo (.host (.checkout ref)) s).1 = .ok commit → repo ref = some commit := by
    simp only [exec, Terraform.exec, hostExec]
    cases repo ref with
    | none => exact ⟨rfl, fun _ h => by cases h⟩
    | some commit => exact ⟨rfl, fun _ h => congrArg some (Except.ok.inj h)⟩
  rcases he.answer with ⟨rfl, rfl⟩ | ⟨hs, e, he⟩
  · exact hexec
  · refine ⟨hs.elim id (·.trans hexec.1), fun commit h => ?_⟩
    rw [show r = .error e from he] at h
    cases h

theorem effect_download {run : ι} {r : Except Refusal Artifact}
    (he : effect repo (.host (.downloadArtifact run)) s r s') :
    s' = s ∧ ∀ artifact, r = .ok artifact → s.2 run = some artifact := by
  have hexec : (exec repo (.host (.downloadArtifact run)) s).2 = s ∧ ∀ artifact,
      (exec repo (.host (.downloadArtifact run)) s).1 = .ok artifact →
        s.2 run = some artifact := by
    simp only [exec, Terraform.exec, hostExec]
    cases s.2 run with
    | none => exact ⟨rfl, fun _ h => by cases h⟩
    | some artifact => exact ⟨rfl, fun _ h => congrArg some (Except.ok.inj h)⟩
  rcases he.answer with ⟨rfl, rfl⟩ | ⟨hs, e, he⟩
  · exact hexec
  · refine ⟨hs.elim id (·.trans hexec.1), fun artifact h => ?_⟩
    rw [show r = .error e from he] at h
    cases h

theorem effect_upload {run : ι} {artifact : Artifact} {r : Except Refusal Unit}
    (he : effect repo (.host (.uploadArtifact run artifact)) s r s') :
    s' = s ∨ s' = (s.1, Function.update s.2 run (some artifact)) := by
  rcases he.state with rfl | rfl
  · exact Or.inl rfl
  · simp only [Terraform.exec, hostExec]
    cases s.2 run with
    | none => exact Or.inr rfl
    | some _ => exact Or.inl rfl

end Calls

/-! ## 3. What the workflows keep -/

section Keeps

variable [DecidableEq ι] {repo : String → Option Commit} {cloud : TfCloud} {jobs : ι → Job ι}

/-- The artifact is the plan of that run. -/
def PlanOf (repo : String → Option Commit) (jobs : ι → Job ι) (run : ι)
    (artifact : Artifact) : Prop :=
  ∃ sha commit, jobs run = .plan sha ∧ repo sha = some commit ∧ artifact = commit.artifact sha

def Planned (repo : String → Option Commit) (jobs : ι → Job ι) (w : Artifacts ι) : Prop :=
  ∀ run artifact, w run = some artifact → PlanOf repo jobs run artifact

abbrev spec (repo : String → Option Commit) (cloud : TfCloud) (jobs : ι → Job ι) :
    Spec ι (Op Name String Args (Host ι)) (Op.Res Host.Res) (Store ι) :=
  unshared cloud (Planned repo jobs)

theorem planned_update {w : Artifacts ι} (hw : Planned repo jobs w) {run : ι} {artifact : Artifact}
    (h : PlanOf repo jobs run artifact) :
    Planned repo jobs (Function.update w run (some artifact)) := by
  intro run' artifact' h'
  by_cases hrun : run' = run
  · subst hrun
    rw [Function.update_self] at h'
    cases h'
    exact h
  · rw [Function.update_of_ne hrun] at h'
    exact hw run' artifact' h'

theorem keeps_plan {run : ι} {sha : String} (hjob : jobs run = .plan sha)
    (K : Store ι → List (Call ι (Op Name String Args (Host ι)) (Op.Res Host.Res)) → Prop) :
    Keeps (effect repo) Atomic.free (spec repo cloud jobs) run K (terraformPlan run sha) := by
  rw [terraformPlan]
  intro s h answer s' hinv _ _ he
  obtain ⟨rfl, hcommit⟩ := effect_checkout he
  refine ⟨leaves_same, ⟨unshared_host hinv.1 _ _, hinv.2⟩, fun _ _ => True,
    stable_grows fun _ _ h => h, trivial, ?_⟩
  cases answer with
  | error e => trivial
  | ok commit =>
      refine keeps_last (fun answer => ?_) fun s h answer s' hinv _ _ he => ?_
      · cases answer <;> exact ⟨_, rfl⟩
      · rcases effect_upload he with rfl | rfl
        · exact ⟨leaves_same, unshared_host hinv.1 _ _, hinv.2⟩
        · have hplan : PlanOf repo jobs run (commit.artifact sha) :=
            ⟨sha, commit, hjob, hcommit commit rfl, rfl⟩
          exact ⟨leaves_same, unshared_host hinv.1 _ _, planned_update hinv.2 hplan⟩

/-- In whatever order, what is planned is to create all that the commit declares. -/
theorem walk_creates {commit : Commit} (hstate : commit.state = []) (sha : String) (walk : Walk) :
    (walk.order (commit.artifact sha).tfplan.actions).Perm
      (commit.config.resources.map .create) := by
  have hperm := walk.perm (commit.artifact sha).tfplan.actions
  have hplan : (commit.artifact sha).tfplan.actions = commit.config.resources.map .create := by
    rw [Commit.artifact, hstate]
    exact plan_nil _
  rwa [hplan] at hperm ⊢

theorem keeps_walk {i : ι} {commit : Commit} (hcommit : commit.StandsAlone) (sha : String)
    (walk : Walk) :
    Keeps (effect repo) Atomic.free (spec repo cloud jobs) i
      (fun s h => Applying commit.config i [] [] s.1 h)
      (applyPlan finished (walk.order (commit.artifact sha).tfplan.actions) [] []) := by
  have hperm := walk_creates hcommit.state sha walk
  exact keeps_applyPlan hcommit.config (creates_of_perm hperm)
    (((slots_perm hperm).filter Slot.isPart).nodup_iff.mpr hcommit.config.parts) _

theorem keeps_apply (hrepo : ∀ ref commit, repo ref = some commit → commit.StandsAlone)
    (i planRunId : ι) (walk : Walk) :
    Keeps (effect repo) Atomic.free (spec repo cloud jobs) i (fun _ h => ∀ e ∈ h, e.who ≠ i)
      (terraformApply planRunId walk) := by
  rw [terraformApply]
  intro s h answer s' hinv hk _ he
  obtain ⟨rfl, hartifact⟩ := effect_download he
  refine ⟨leaves_same, ⟨unshared_host hinv.1 _ _, hinv.2⟩, ?_⟩
  cases answer with
  | error e => exact ⟨fun _ _ => True, stable_grows fun _ _ h => h, trivial, trivial⟩
  | ok artifact =>
      obtain ⟨sha, commit, _, hplanned, rfl⟩ := hinv.2 planRunId artifact (hartifact artifact rfl)
      refine ⟨fun s h => Applying commit.config i [] [] s.1 h, stable_applying,
        (applying_nil hk).host _ _, ?_⟩
      intro s h answer s' hinv hk _ he
      obtain ⟨rfl, hcheckout⟩ := effect_checkout he
      refine ⟨leaves_same, ⟨unshared_host hinv.1 _ _, hinv.2⟩, ?_⟩
      cases answer with
      | error e => exact ⟨fun _ _ => True, stable_grows fun _ _ h => h, trivial, trivial⟩
      | ok checkout =>
          have hfresh := (hrepo _ checkout (hcheckout checkout rfl)).state
          refine ⟨_, stable_applying, hk.host _ _, ?_⟩
          dsimp only
          rw [hfresh]
          split
          · exact keeps_walk (hrepo sha commit hplanned) sha walk
          · exact keeps_final ⟨_, rfl⟩

theorem known_start (hrepo : ∀ ref commit, repo ref = some commit → commit.StandsAlone) :
    Known (effect repo) Atomic.free (spec repo cloud jobs) (start cloud jobs) := by
  refine known_init ⟨unshared_start cloud, fun _ _ h => nomatch h⟩ fun i => ?_
  cases hjob : jobs i with
  | plan sha => exact keeps_plan hjob _
  | apply planRunId walk => exact keeps_apply hrepo i planRunId walk

end Keeps

/-! ## 4. What a run has made -/

section Traces

theorem trace_ret {a b : Outcome} {es : List (Made (Op Name String Args (Host ι)) (Op.Res Host.Res))}
    (h : (Prog.ret a).Trace es (.ret b)) : a = b := by
  cases h
  rfl

/-- A plan applies nothing. -/
theorem plan_applied {run : ι} {sha : String}
    {es : List (Made (Op Name String Args (Host ι)) (Op.Res Host.Res))} :
    ¬ (terraformPlan run sha).Trace es (.ret .applied) := by
  intro h
  rw [terraformPlan] at h
  obtain ⟨answer, es', -, h⟩ := h.of_call ⟨_, rfl⟩
  cases answer with
  | error e => exact nomatch trace_ret h
  | ok commit =>
      obtain ⟨answer, es', -, h⟩ := h.of_call ⟨_, rfl⟩
      cases answer with
      | error e => exact nomatch trace_ret h
      | ok _ => exact nomatch trace_ret h

theorem finished_applied (st : TfState) (failed : List String) (h : finished st failed = .applied) :
    failed = [] := by
  unfold finished at h
  split at h
  · exact List.isEmpty_iff.mp ‹_›
  · cases h

/-- The calls of an apply that succeeded. -/
theorem apply_applied {planRunId : ι} {walk : Walk}
    {es : List (Made (Op Name String Args (Host ι)) (Op.Res Host.Res))}
    (h : (terraformApply planRunId walk).Trace es (.ret .applied)) :
    ∃ artifact, (⟨.host (.downloadArtifact planRunId), .ok artifact⟩ :
        Made (Op Name String Args (Host ι)) (Op.Res Host.Res)) ∈ es ∧
      ∃ es' state, (∀ m ∈ es', m ∈ es) ∧
        (applyPlan finished (walk.order artifact.tfplan.actions) state []).Trace es'
          (.ret .applied) := by
  rw [terraformApply] at h
  obtain ⟨answer, es₁, hes₁, h₁⟩ := h.of_call ⟨_, rfl⟩
  subst hes₁
  cases answer with
  | error e => exact nomatch trace_ret h₁
  | ok artifact =>
      refine ⟨artifact, List.mem_cons_self, ?_⟩
      obtain ⟨answer, es₂, hes₂, h₂⟩ := h₁.of_call ⟨_, rfl⟩
      subst hes₂
      cases answer with
      | error e => exact nomatch trace_ret h₂
      | ok commit =>
          dsimp only at h₂
          split at h₂
          · exact ⟨es₂, _, fun m hm => List.mem_cons_of_mem _ (List.mem_cons_of_mem _ hm), h₂⟩
          · exact nomatch trace_ret h₂

end Traces

section Runs

variable [DecidableEq ι] {repo : String → Option Commit} {cloud : TfCloud} {jobs : ι → Job ι}
  {c c' : Machine ι}

/-- **Nothing that is there is changed or removed**, by any step of any run: what is changed in a
    commit is not deployed to what an earlier apply has made. -/
theorem untouched (hrepo : ∀ ref commit, repo ref = some commit → commit.StandsAlone)
    {e : Call ι (Op Name String Args (Host ι)) (Op.Res Host.Res)}
    (h : Run (effect repo) Atomic.free (start cloud jobs) c)
    (hs : Step (effect repo) Atomic.free c e c') {id : Id Name String} {args : Args}
    (hid : c.store.1.objects id = some args) : c'.store.1.objects id = some args :=
  (step_guar (known_start hrepo) h hs).kept id args hid

/-- What was downloaded is a plan of the run. -/
theorem downloaded (hrepo : ∀ ref commit, repo ref = some commit → commit.StandsAlone)
    (h : Run (effect repo) Atomic.free (start cloud jobs) c) {i run : ι}
    {artifact : Artifact}
    (hmem : (⟨i, .host (.downloadArtifact run), .ok artifact⟩ :
      Call ι (Op Name String Args (Host ι)) (Op.Res Host.Res)) ∈ c.hist) :
    PlanOf repo jobs run artifact := by
  induction h with
  | start => exact absurd hmem List.not_mem_nil
  | @step c₁ c₂ e h hs ih =>
      rw [hs.hist] at hmem
      rcases List.mem_append.mp hmem with hmem | hmem
      · exact ih hmem
      · obtain rfl := List.mem_singleton.mp hmem
        exact (run_keeps (known_start hrepo) h).1.2 run artifact ((effect_download hs.effect).2 artifact rfl)

/-- The run applies the plan of that commit. -/
def Deploys (repo : String → Option Commit) (jobs : ι → Job ι) (i : ι) (commit : Commit) : Prop :=
  ∃ run walk sha, jobs i = .apply run walk ∧ jobs run = .plan sha ∧ repo sha = some commit

/-- An apply that succeeded was answered for everything that the commit declares. -/
theorem applied_created (hrepo : ∀ ref commit, repo ref = some commit → commit.StandsAlone)
    (h : Run (effect repo) Atomic.free (start cloud jobs) c) {i : ι}
    (hi : c.pool i = .ret .applied) :
    ∃ commit, Deploys repo jobs i commit ∧ ∀ r ∈ commit.config.resources,
      ∃ id, Created i r.slot r.args id c.hist := by
  have htrace := run_trace h i
  rw [hi] at htrace
  cases hjob : jobs i with
  | plan sha =>
      rw [hjob] at htrace
      exact absurd htrace plan_applied
  | apply run walk =>
      rw [hjob] at htrace
      obtain ⟨artifact, hdownload, es, state, hsub, hes⟩ := apply_applied htrace
      obtain ⟨e, he, hwho, hmade⟩ := exists_of_mem_callsOf hdownload
      obtain ⟨who, op, res⟩ := e
      cases hwho
      cases hmade
      obtain ⟨sha, commit, hplan, hcommit, rfl⟩ := downloaded hrepo h he
      have hperm := walk_creates (hrepo sha commit hcommit).state sha walk
      have hcalls := applied_all finished_applied
        (fun x hx => (creates_of_perm hperm x hx).imp fun r hr => hr.2) hes
      refine ⟨commit, ⟨run, walk, sha, hjob, hplan, hcommit⟩, fun r hr => ?_⟩
      have hmem := hperm.symm.subset (List.mem_map_of_mem hr)
      obtain ⟨id, hid⟩ := hcalls.2 r hmem
      obtain ⟨e, he, hwho, hmade⟩ := exists_of_mem_callsOf (hsub _ hid)
      obtain ⟨who, op, res⟩ := e
      cases hwho
      cases hmade
      exact ⟨id, he⟩

omit [DecidableEq ι] in
theorem Deploys.unique {i : ι} {commit commit' : Commit} (h : Deploys repo jobs i commit)
    (h' : Deploys repo jobs i commit') : commit = commit' := by
  obtain ⟨run, walk, sha, hjob, hplan, hrepo⟩ := h
  obtain ⟨run', walk', sha', hjob', hplan', hrepo'⟩ := h'
  rw [hjob] at hjob'
  cases hjob'
  rw [hplan] at hplan'
  cases hplan'
  exact Option.some.inj (hrepo.symm.trans hrepo')

/-- **An apply that succeeds has made what the planned commit declares**: each object is a new one,
    and stays as it is declared. Of the applies of commits that declare an object of the same name
    only one succeeds. -/
theorem applied_lasting (hrepo : ∀ ref commit, repo ref = some commit → commit.StandsAlone)
    (h : Run (effect repo) Atomic.free (start cloud jobs) c) :
    (∀ i, c.pool i = .ret .applied → ∃ commit, Deploys repo jobs i commit ∧
      ∀ r ∈ commit.config.resources, ∃ id, r.slot.fits id ∧ cloud.objects id = none ∧
        c.store.1.objects id = some r.args) ∧
    ∀ i j commit commit', c.pool i = .ret .applied → c.pool j = .ret .applied →
      Deploys repo jobs i commit → Deploys repo jobs j commit' →
      ∀ r ∈ commit.config.resources, ∀ r' ∈ commit'.config.resources,
        ∀ n, r.slot = .object n → r'.slot = .object n → i = j := by
  have hU := (run_keeps (known_start hrepo) h).1.1
  refine ⟨fun i hi => ?_, fun i j commit commit' hi hj hd hd' r hr r' hr' n hn hn' => ?_⟩
  · obtain ⟨commit, hd, hcreated⟩ := applied_created hrepo h hi
    refine ⟨commit, hd, fun r hr => ?_⟩
    obtain ⟨id, hid⟩ := hcreated r hr
    exact ⟨id, hU.made i r.slot r.args id hid⟩
  · obtain ⟨_, hd₁, hcreated⟩ := applied_created hrepo h hi
    obtain ⟨_, hd₂, hcreated'⟩ := applied_created hrepo h hj
    obtain rfl := hd.unique hd₁
    obtain rfl := hd'.unique hd₂
    obtain ⟨id, hid⟩ := hcreated r hr
    obtain ⟨id', hid'⟩ := hcreated' r' hr'
    -- both were answered for the object of that name
    have hfits := (hU.made i r.slot r.args id hid).1
    have hfits' := (hU.made j r'.slot r'.args id' hid').1
    rw [hn] at hfits
    rw [hn'] at hfits'
    cases hfits
    cases hfits'
    exact hU.once i j _ _ _ _ _ hid hid'

end Runs

/-! ## 5. The site -/

/-- A reference to an attribute of another resource is kept as it is written. -/
def site : TfConfig where
  resources := [
    ⟨"aws_s3_bucket.static_site", [], .object ("aws_s3_bucket", "tf-static-site-demo-1213-bucket"),
      [("force_destroy", "true")]⟩,
    ⟨"aws_s3_bucket_public_access_block.this", ["aws_s3_bucket.static_site"],
      .part ("aws_s3_bucket", "tf-static-site-demo-1213-bucket") "public_access_block",
      [("block_public_acls", "true"), ("block_public_policy", "true"),
        ("ignore_public_acls", "true"), ("restrict_public_buckets", "true")]⟩,
    ⟨"aws_s3_bucket_versioning.this", ["aws_s3_bucket.static_site"],
      .part ("aws_s3_bucket", "tf-static-site-demo-1213-bucket") "versioning",
      [("versioning_configuration.status", "Enabled")]⟩,
    ⟨"aws_cloudfront_origin_access_control.oac", [],
      .object ("aws_cloudfront_origin_access_control", "tf-static-site-demo-1213-oac"),
      [("description", "OAC for S3 static site"), ("origin_access_control_origin_type", "s3"),
        ("signing_behavior", "always"), ("signing_protocol", "sigv4")]⟩,
    ⟨"aws_cloudfront_distribution.this",
      ["aws_s3_bucket.static_site", "aws_cloudfront_origin_access_control.oac"], .unnamed,
      [("enabled", "true"), ("default_root_object", "index.html"),
        ("origin.domain_name", "aws_s3_bucket.static_site.bucket_regional_domain_name"),
        ("origin.origin_id", "s3-origin"),
        ("origin.origin_access_control_id", "aws_cloudfront_origin_access_control.oac.id"),
        ("default_cache_behavior.target_origin_id", "s3-origin"),
        ("default_cache_behavior.viewer_protocol_policy", "redirect-to-https"),
        ("default_cache_behavior.allowed_methods", "GET, HEAD"),
        ("default_cache_behavior.cached_methods", "GET, HEAD"),
        ("default_cache_behavior.forwarded_values.query_string", "false"),
        ("default_cache_behavior.forwarded_values.cookies.forward", "none"),
        ("restrictions.geo_restriction.restriction_type", "none"),
        ("viewer_certificate.cloudfront_default_certificate", "true")]⟩,
    ⟨"aws_s3_bucket_policy.this", ["aws_s3_bucket.static_site", "aws_cloudfront_distribution.this"],
      .part ("aws_s3_bucket", "tf-static-site-demo-1213-bucket") "policy",
      [("policy", "data.aws_iam_policy_document.s3_policy.json")]⟩]
  addrs := by decide

/-- The commit of the site brings no state, and what has parts is its own bucket. -/
theorem site_standsAlone : (⟨site, []⟩ : Commit).StandsAlone where
  state := rfl
  config :=
    { parts := by decide
      refers := by
        intro r hr n k hslot
        simp only [site, List.mem_cons, List.not_mem_nil, or_false] at hr
        rcases hr with rfl | rfl | rfl | rfl | rfl | rfl <;> cases hslot <;>
          exact ⟨_, List.mem_cons_self, by decide, rfl⟩ }

def outcome : Workflow ι → Option Outcome
  | .ret a => some a
  | .call _ _ => none

theorem of_outcome {w : Workflow ι} {a : Outcome} (h : outcome w = some a) : w = .ret a := by
  cases w with
  | ret b => exact congrArg Prog.ret (Option.some.inj h)
  | call op next => cases h

/-- A plan of the site, and two applies of it. -/
inductive SiteRun where
  | planning
  | first
  | second
  deriving DecidableEq

def siteJobs : SiteRun → Job SiteRun
  | .planning => .plan "c1"
  | .first => .apply .planning .asPlanned
  | .second => .apply .planning .asPlanned

def siteRepo : String → Option Commit := fun _ => some ⟨site, []⟩

theorem siteRepo_standsAlone : ∀ ref commit, siteRepo ref = some commit → commit.StandsAlone := by
  intro ref commit h
  cases h
  exact site_standsAlone

/-- The calls of a plan of the site and of two applies of it, in this order. -/
def takingTurns (order : List SiteRun) : Machine SiteRun :=
  (start .empty siteJobs).sched (exec siteRepo) order

theorem takingTurns_run (order : List SiteRun) :
    Run (effect siteRepo) Atomic.free (start .empty siteJobs) (takingTurns order) :=
  sched_run (fun _ _ => .done) _ _

/-- Both begin before anything is made, and the first makes all. -/
def firstApplies : List SiteRun :=
  [.planning, .planning, .first, .second, .first, .second, .first, .first, .first, .first, .first,
    .first]

def bothApply : List SiteRun := firstApplies ++ [.second, .second]

/-- The one makes the site, and the other fails. -/
theorem applied_lasting_first :
    outcome ((takingTurns bothApply).pool .second) = some .failed ∧
    ∃ commit, Deploys siteRepo siteJobs .first commit ∧
      ∀ r ∈ commit.config.resources, ∃ id, r.slot.fits id ∧
        (Cloud.empty : TfCloud).objects id = none ∧
        (takingTurns bothApply).store.1.objects id = some r.args := by
  have hfirst : outcome ((takingTurns bothApply).pool .first) = some .applied := by decide +kernel
  exact ⟨by decide +kernel,
    (applied_lasting siteRepo_standsAlone (takingTurns_run bothApply)).1 .first (of_outcome hfirst)⟩

/-- The second asks for the bucket, which stays as it is. -/
theorem untouched_bucket :
    (takingTurns (firstApplies ++ [.second])).store.1.objects
      (.object ("aws_s3_bucket", "tf-static-site-demo-1213-bucket")) =
        some [("force_destroy", "true")] := by
  have hbucket : (takingTurns firstApplies).store.1.objects
      (.object ("aws_s3_bucket", "tf-static-site-demo-1213-bucket")) =
        some [("force_destroy", "true")] := by decide +kernel
  cases hnext : (takingTurns firstApplies).pool .second with
  | ret a =>
      have hnone : outcome ((takingTurns firstApplies).pool .second) = none := by decide +kernel
      rw [hnext] at hnone
      cases hnone
  | call op next =>
      exact untouched siteRepo_standsAlone (takingTurns_run _) (sched_step (fun _ _ => .done) _ _ hnext) hbucket

end TerraformCiCd
