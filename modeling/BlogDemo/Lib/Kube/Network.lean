/-
  File:      BlogDemo/Lib/Kube/Network.lean
  Subject:   NETWORK POLICIES, as Cilium enforces the NetworkPolicies of Kubernetes and its own: which
             connection a list of policies lets through.

  Whoever no policy selects in a direction is free in it; whoever one selects is isolated there, and is
  let through by the rules of the policies that select it. A connection has to be let out at its source
  and in at its destination.

  * `Policy`, `Rule`, `PeerSelector`, `FqdnSelector` -- what a policy says;
  * `admits`, `allowed` -- what a list of policies lets through;
  * **`admits_iff`** -- for an isolated endpoint: some rule of some policy that selects it;
  * **`star_iff`** -- the leading star of a pattern of names stands for characters of one label.
-/
import BlogDemo.Lib.Kube.Meta

namespace Network

open Kube (StringMap)

/-! ## 1. Endpoints and connections -/

inductive Protocol where
  | TCP
  | UDP
  deriving DecidableEq, Repr

structure Port where
  port : Nat
  protocol : Protocol
  deriving DecidableEq, Repr

/-- A pod, as policies see it. -/
structure Endpoint where
  ns : String
  labels : StringMap

/-- One side of a connection. -/
inductive Peer where
  | pod (e : Endpoint)
  /-- The node of the pod at the other end. -/
  | host
  /-- Another node of the cluster. -/
  | remoteNode
  /-- An address outside of the cluster, by the names that were resolved to it. -/
  | world (names : List String)

structure Connection where
  source : Peer
  dest : Peer
  port : Port

/-! ## 2. Selectors -/

/-- A key without the source `k8s`, which all labels of a pod have. -/
def unprefixed (key : String) : String :=
  match key.toList with
  | 'k' :: '8' :: 's' :: ':' :: rest => String.ofList rest
  | _ => key

/-- The label under which Cilium keeps the namespace of a pod. -/
def namespaceKey : String := "k8s:io.kubernetes.pod.namespace"

def Endpoint.label (e : Endpoint) (key : String) : Option String :=
  if key = namespaceKey then some e.ns else e.labels.lookup (unprefixed key)

abbrev MatchLabels := List (String × String)

def MatchLabels.matches (l : MatchLabels) (e : Endpoint) : Bool :=
  l.all fun kv => e.label kv.1 == some kv.2

/-- The characters that a star stands for. -/
def nameChar (c : Char) : Bool := c.isAlphanum || c == '-' || c == '_'

/-- What is left of a text after a star. -/
def starRests : List Char → List (List Char)
  | [] => [[]]
  | c :: cs => (c :: cs) :: if nameChar c then starRests cs else []

/-- A name against a pattern with single stars. -/
def glob : List Char → List Char → Bool
  | [], cs => cs.isEmpty
  | p :: ps, cs =>
    if p = '*' then (starRests cs).any (glob ps)
    else match cs with
      | [] => false
      | c :: cs => p == c && glob ps cs

inductive FqdnSelector where
  | matchName (name : String)
  | matchPattern (pattern : String)

def FqdnSelector.matches : FqdnSelector → String → Bool
  | .matchName n, name => n == name
  | .matchPattern p, name => glob p.toList name.toList

/-- An entry of `fromEndpoints`, `toEndpoints`, `fromEntities` or `toFQDNs`. The entity `host` is the
    pod's own node, not the others. -/
inductive PeerSelector where
  | endpoints (matchLabels : MatchLabels)
  | host
  | fqdn (f : FqdnSelector)

/-- Endpoints are those of the policy's namespace, unless the labels name another. -/
def PeerSelector.matches (ns : Option String) : PeerSelector → Peer → Bool
  | .endpoints l, .pod e =>
    MatchLabels.matches l e && (l.any (·.1 == namespaceKey) || ns.all (· == e.ns))
  | .host, .host => true
  | .fqdn f, .world names => names.any f.matches
  | _, _ => false

/-! ## 3. Policies -/

/-- Peers and ports; no ports are all ports. -/
structure Rule where
  peers : List PeerSelector
  toPorts : List Port

def Rule.matches (r : Rule) (ns : Option String) (peer : Peer) (port : Port) : Bool :=
  r.peers.any (·.matches ns peer) && (r.toPorts.isEmpty || r.toPorts.contains port)

inductive Direction where
  | ingress
  | egress

/-- A policy of a namespace, or of the cluster. It isolates in the directions for which it has rules,
    be it none. -/
structure Policy where
  ns : Option String
  endpointSelector : MatchLabels
  ingress : Option (List Rule) := none
  egress : Option (List Rule) := none

def Policy.rules (p : Policy) : Direction → Option (List Rule)
  | .ingress => p.ingress
  | .egress => p.egress

def Policy.selects (p : Policy) (e : Endpoint) : Bool :=
  p.ns.all (· == e.ns) && p.endpointSelector.matches e

section Policies

variable (ps : List Policy) (d : Direction) (e : Endpoint)

def isolated : Bool := ps.any fun p => p.selects e && (p.rules d).isSome

/-- **The endpoint may talk to the peer** in this direction. -/
def admits (peer : Peer) (port : Port) : Bool :=
  !isolated ps d e || ps.any fun p =>
    p.selects e && ((p.rules d).getD []).any (·.matches p.ns peer port)

/-- The connection may leave its source. -/
def leaves (c : Connection) : Bool :=
  match c.source with
  | .pod e => admits ps .egress e c.dest c.port
  | _ => true

/-- The connection may enter its destination. An agent that allows localhost lets the node of a pod
    in, whatever the policies say. -/
def enters (localhost : Bool) (c : Connection) : Bool :=
  match c.source, c.dest with
  | .host, .pod e => localhost || admits ps .ingress e .host c.port
  | source, .pod e => admits ps .ingress e source c.port
  | _, _ => true

/-- **The connection is let through**, out of its source and into its destination. -/
def allowed (localhost : Bool) (c : Connection) : Bool := leaves ps c && enters ps localhost c

/-- The policy lets the endpoint talk to the peer. -/
def Policy.Opens (p : Policy) (peer : Peer) (port : Port) : Prop :=
  p.selects e = true ∧ ∃ r ∈ (p.rules d).getD [], r.matches p.ns peer port = true

end Policies

/-! ## 4. Rules -/

section Lemmas

variable {ps : List Policy} {d : Direction} {e : Endpoint} {peer : Peer} {port : Port}

theorem isolated_of_mem {p : Policy} (hp : p ∈ ps) (hs : p.selects e = true)
    (hd : (p.rules d).isSome = true) : isolated ps d e = true :=
  List.any_eq_true.mpr ⟨p, hp, by rw [hs, hd]; rfl⟩

/-- **An isolated endpoint** is let through by the rules of the policies that select it. -/
theorem admits_iff (h : isolated ps d e = true) :
    admits ps d e peer port = true ↔ ∃ p ∈ ps, p.Opens d e peer port := by
  simp only [admits, Policy.Opens, h, Bool.not_true, Bool.false_or, List.any_eq_true,
    Bool.and_eq_true]

/-- A policy without rules in this direction opens nothing. -/
theorem not_opens {p : Policy} (h : (p.rules d).getD [] = []) :
    p.Opens d e peer port ↔ False := by
  refine iff_false_intro fun hopens => ?_
  obtain ⟨r, hr, _⟩ := hopens.2
  rw [h] at hr
  cases hr

/-- A policy with one rule, which names its ports. -/
theorem opens_iff {p : Policy} {peers : List PeerSelector} {q : Port} {qs : List Port}
    (h : p.rules d = some [⟨peers, q :: qs⟩]) : p.Opens d e peer port ↔ p.selects e = true ∧
      (∃ x ∈ peers, x.matches p.ns peer = true) ∧ port ∈ q :: qs := by
  rw [Policy.Opens, h, Option.getD_some]
  simp only [List.mem_singleton, exists_eq_left, Rule.matches, List.isEmpty_cons, Bool.false_or,
    Bool.and_eq_true, List.any_eq_true, List.contains_iff_mem]

/-- An endpoint that no policy selects is free. -/
theorem admits_of_unselected (h : ∀ p ∈ ps, p.selects e = false) :
    admits ps d e peer port = true := by
  have hisolated : isolated ps d e = false := by
    refine List.any_eq_false.mpr fun p hp => ?_
    rw [h p hp]
    exact Bool.false_ne_true
  rw [admits, hisolated]
  rfl

end Lemmas

/-! ## 5. Patterns of names -/

theorem mem_starRests {cs rest : List Char} :
    rest ∈ starRests cs ↔ ∃ label, cs = label ++ rest ∧ ∀ c ∈ label, nameChar c = true := by
  induction cs with
  | nil =>
      simp only [starRests, List.mem_singleton]
      constructor
      · intro h
        exact ⟨[], by rw [h]; rfl, nofun⟩
      · intro h
        obtain ⟨label, happend, _⟩ := h
        exact (List.append_eq_nil_iff.mp happend.symm).2
  | cons c cs ih =>
      have hcons : rest ∈ starRests (c :: cs) ↔
          rest = c :: cs ∨ nameChar c = true ∧ rest ∈ starRests cs := by
        rw [starRests, List.mem_cons]
        by_cases hc : nameChar c = true
        · simp [hc]
        · simp [hc]
      rw [hcons, ih]
      constructor
      · intro h
        rcases h with rfl | ⟨hc, label, rfl, hlabel⟩
        · exact ⟨[], rfl, nofun⟩
        · refine ⟨c :: label, rfl, fun x hx => ?_⟩
          rcases List.mem_cons.mp hx with rfl | hx
          · exact hc
          · exact hlabel x hx
      · intro h
        obtain ⟨label, happend, hlabel⟩ := h
        cases label with
        | nil => exact Or.inl happend.symm
        | cons x label =>
            obtain ⟨rfl, rfl⟩ := List.cons.inj happend
            exact Or.inr ⟨hlabel _ List.mem_cons_self, label, rfl,
              fun y hy => hlabel y (List.mem_cons_of_mem _ hy)⟩

theorem glob_star (ps cs : List Char) : glob ('*' :: ps) cs = (starRests cs).any (glob ps) := by
  cases cs <;> rfl

theorem glob_nil {p : Char} (hp : p ≠ '*') (ps : List Char) : glob (p :: ps) [] = false :=
  if_neg hp

theorem glob_cons {p : Char} (hp : p ≠ '*') (ps : List Char) (c : Char) (cs : List Char) :
    glob (p :: ps) (c :: cs) = (p == c && glob ps cs) := if_neg hp

/-- A pattern without stars is the name. -/
theorem glob_iff {ps : List Char} (h : '*' ∉ ps) (cs : List Char) :
    glob ps cs = true ↔ cs = ps := by
  induction ps generalizing cs with
  | nil => simp [glob]
  | cons p ps ih =>
      obtain ⟨hp, hps⟩ := not_or.mp (mt List.mem_cons.mpr h)
      cases cs with
      | nil => simp [glob_nil (Ne.symm hp)]
      | cons c cs =>
          rw [glob_cons (Ne.symm hp)]
          simp only [Bool.and_eq_true, beq_iff_eq, ih hps, List.cons.injEq]
          exact and_congr_left' eq_comm

/-- **A leading star** stands for characters of one label: there is no dot among them. -/
theorem star_iff {ps : List Char} (h : '*' ∉ ps) (cs : List Char) :
    glob ('*' :: ps) cs = true ↔ ∃ label, cs = label ++ ps ∧ ∀ c ∈ label, nameChar c = true := by
  rw [glob_star, List.any_eq_true]
  constructor
  · intro hrest
    obtain ⟨rest, hmem, hglob⟩ := hrest
    obtain rfl := (glob_iff h rest).mp hglob
    exact mem_starRests.mp hmem
  · intro hlabel
    exact ⟨ps, mem_starRests.mpr hlabel, (glob_iff h ps).mpr rfl⟩

end Network
