/-
  File:      BlogDemo/Lib/Kube/Mesh.lean
  Subject:   THE AUTHORIZATION OF A SERVICE MESH, as Istio has it: which request the sidecar of a workload
             lets through to it.

  A workload that no policy selects takes every request; one that some select takes those that a rule of
  one of them matches. A caller is known by its principal, which mutual TLS proves.

  * `Request`, `principal` -- a request, and who sends it;
  * `AuthorizationPolicy`, `authorized` -- the policies that allow, and what they let through;
  * **`authorized_iff`**, `allows_iff` -- what that is, as a condition on the request.
-/
import BlogDemo.Lib.Kube.Network

namespace Mesh

open Network (Endpoint MatchLabels Port)

structure Request where
  source : Endpoint
  serviceAccount : String
  /-- The connection is one of mutual TLS, from sidecar to sidecar. -/
  mtls : Bool
  dest : Endpoint
  port : Port
  method : String
  /-- The path of the URL, without its query. -/
  path : String

/-- Who the certificate of the caller says it is. -/
def Request.principal (r : Request) : Option String :=
  if r.mtls then some ("cluster.local/ns/" ++ r.source.ns ++ "/sa/" ++ r.serviceAccount) else none

/-- An entry of `from`: one of the principals. -/
structure Source where
  principals : List String

/-- An entry of `to`: one of the methods, and one of the paths. -/
structure Operation where
  methods : List String
  paths : List String

structure Rule where
  source : List Source
  operation : List Operation

/-- A policy of a namespace; its action is to allow. -/
structure AuthorizationPolicy where
  ns : String
  selector : MatchLabels
  rules : List Rule

def Source.matches (s : Source) (r : Request) : Bool := s.principals.any fun p => r.principal == some p

def Operation.matches (o : Operation) (r : Request) : Bool :=
  o.methods.contains r.method && o.paths.contains r.path

/-- Somebody of `from` does something of `to`; what is left out is anybody, and anything. -/
def Rule.matches (rule : Rule) (r : Request) : Bool :=
  (rule.source.isEmpty || rule.source.any (·.matches r)) &&
    (rule.operation.isEmpty || rule.operation.any (·.matches r))

def AuthorizationPolicy.selects (p : AuthorizationPolicy) (e : Endpoint) : Bool :=
  p.ns == e.ns && p.selector.matches e

section Policies

variable (ps : List AuthorizationPolicy) (r : Request)

/-- **The policies allow the request.** -/
def authorized : Bool :=
  !ps.any (·.selects r.dest) || ps.any fun p => p.selects r.dest && p.rules.any (·.matches r)

/-- The policy lets the request through. -/
def AuthorizationPolicy.Allows (p : AuthorizationPolicy) (r : Request) : Prop :=
  p.selects r.dest = true ∧ ∃ rule ∈ p.rules, rule.matches r = true

variable {ps r}

/-- **What gets to a workload**: everything where no policy selects it, else what one of those that do
    lets through. -/
theorem authorized_iff : authorized ps r = true ↔
    (∀ p ∈ ps, p.selects r.dest = false) ∨ ∃ p ∈ ps, p.Allows r := by
  simp only [authorized, AuthorizationPolicy.Allows, Bool.or_eq_true, Bool.not_eq_true',
    List.any_eq_false, Bool.not_eq_true, List.any_eq_true, Bool.and_eq_true]

/-- What a policy with one rule of one source and one operation lets through. -/
theorem allows_iff {p : AuthorizationPolicy} {principal : String} {methods paths : List String}
    (h : p.rules = [⟨[⟨[principal]⟩], [⟨methods, paths⟩]⟩]) : p.Allows r ↔
      p.selects r.dest = true ∧ r.principal = some principal ∧ r.method ∈ methods ∧
        r.path ∈ paths := by
  rw [AuthorizationPolicy.Allows, h]
  simp only [List.mem_singleton, exists_eq_left, Rule.matches, Source.matches, Operation.matches,
    List.isEmpty_cons, List.any_cons, List.any_nil, Bool.or_false, Bool.false_or, Bool.and_eq_true,
    beq_iff_eq, List.contains_iff_mem]

end Policies

end Mesh
