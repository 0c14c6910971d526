/-
  File:      BlogDemo/ZeroTrust/Shop.lean
  Subject:   THE NETWORK OF THE SHOP (k8s-zerotrust, cilium-*.yaml): everything is denied in the namespace, and
             what the applications need is allowed, out of the one and into the other.

  * `policies` -- the policies, under their names in the source;
  * `Intended`, **`allowed_iff`** -- the connections that are let through, between any two endpoints;
  * **`path_infix`** -- a path of connections inside the shop follows frontend, api, orders, db or
    frontend, api, payments.
-/
import BlogDemo.Lib.Kube.Network
import Mathlib.Data.List.Chain

namespace ZeroTrust

open Network

/-! ## 1. The policies -/

def tcp (port : Nat) : Port := ⟨port, .TCP⟩

/-- cilium-default-deny.yaml -/
def shopDefaultDeny : Policy where
  ns := some "shop"
  endpointSelector := []
  ingress := some []
  egress := some []

/-- cilium-global.yaml -/
def denyNodeToWorkload : Policy where
  ns := none
  endpointSelector := [("k8s:io.kubernetes.pod.namespace", "shop")]
  ingress := some [⟨[.host], [tcp 15021]⟩]

/-! cilium-allow.yaml -/

def allowDns : Policy where
  ns := some "shop"
  endpointSelector := []
  egress := some [⟨
    [.endpoints [("k8s:io.kubernetes.pod.namespace", "kube-system"), ("k8s-app", "kube-dns")],
      .endpoints [("k8s:io.kubernetes.pod.namespace", "kube-system"), ("k8s-app", "coredns")]],
    [⟨53, .UDP⟩, ⟨53, .TCP⟩]⟩]

def allowIstiod : Policy where
  ns := some "shop"
  endpointSelector := []
  egress := some [⟨
    [.endpoints [("k8s:io.kubernetes.pod.namespace", "istio-system"), ("k8s:app", "istiod")]],
    [tcp 15010, tcp 15012, tcp 443]⟩]

/-- Into the pods of `dest`, from those of `source`. -/
def ingressFrom (source dest : String) (port : Nat) : Policy where
  ns := some "shop"
  endpointSelector := [("app", dest)]
  ingress := some [⟨[.endpoints [("app", source)]], [tcp port]⟩]

/-- Out of the pods of `source`, to those of `dest`. -/
def egressTo (source dest : String) (port : Nat) : Policy where
  ns := some "shop"
  endpointSelector := [("app", source)]
  egress := some [⟨[.endpoints [("app", dest)]], [tcp port]⟩]

def frontendToApi : Policy := ingressFrom "frontend" "api" 80
def frontendEgressToApi : Policy := egressTo "frontend" "api" 80
def apiToOrders : Policy := ingressFrom "api" "orders" 80
def apiEgressToOrders : Policy := egressTo "api" "orders" 80
def apiToPayments : Policy := ingressFrom "api" "payments" 80
def apiEgressToPayments : Policy := egressTo "api" "payments" 80
def ordersToDb : Policy := ingressFrom "orders" "db" 5432
def ordersEgressToDb : Policy := egressTo "orders" "db" 5432

def allowPrometheusScrape : Policy where
  ns := some "shop"
  endpointSelector := []
  ingress := some [⟨
    [.endpoints [("k8s:io.kubernetes.pod.namespace", "istio-system"), ("k8s:app", "prometheus")]],
    [tcp 15020, tcp 15090]⟩]

/-- cilium-fqdn.yaml -/
def allowEgressFqdn : Policy where
  ns := some "shop"
  endpointSelector := [("app", "api")]
  egress := some [⟨
    [.fqdn (.matchName "api.stripe.com"), .fqdn (.matchName "example.com"),
      .fqdn (.matchPattern "*.amazonaws.com")],
    [tcp 443, tcp 80]⟩]

def policies : List Policy := [
  shopDefaultDeny, denyNodeToWorkload, allowDns, allowIstiod,
  frontendToApi, frontendEgressToApi, apiToOrders, apiEgressToOrders,
  apiToPayments, apiEgressToPayments, ordersToDb, ordersEgressToDb,
  allowPrometheusScrape, allowEgressFqdn]

/-! ## 2. What they let through -/

/-- The application of a pod. -/
def app (e : Endpoint) : Option String := e.labels.lookup "app"

/-- The pod is of the shop. -/
def InShop (e : Endpoint) : Prop := e.ns = "shop"

/-- **The calls of the applications**, and their ports. -/
inductive Calls : String → String → Nat → Prop where
  | api : Calls "frontend" "api" 80
  | orders : Calls "api" "orders" 80
  | payments : Calls "api" "payments" 80
  | db : Calls "orders" "db" 5432

/-- One application of the shop calls another. -/
def Call (s d : Endpoint) (port : Port) : Prop :=
  ∃ a b n, Calls a b n ∧ app s = some a ∧ app d = some b ∧ port = tcp n

/-- A name that the api may call: a subdomain of AWS is one label. -/
def Outside (name : String) : Prop :=
  name = "api.stripe.com" ∨ name = "example.com" ∨
    ∃ label, name.toList = label ++ ".amazonaws.com".toList ∧ ∀ c ∈ label, nameChar c = true

section Labels

variable (e : Endpoint)

theorem label_ns : e.label "k8s:io.kubernetes.pod.namespace" = some e.ns := if_pos rfl

theorem label_app : e.label "app" = app e := by
  have hkey : unprefixed "app" = "app" := by decide
  rw [Endpoint.label, if_neg (by decide), hkey]
  rfl

theorem label_k8s_app : e.label "k8s:app" = app e := by
  have hkey : unprefixed "k8s:app" = "app" := by decide
  rw [Endpoint.label, if_neg (by decide), hkey]
  rfl

theorem label_dns : e.label "k8s-app" = e.labels.lookup "k8s-app" := by
  have hkey : unprefixed "k8s-app" = "k8s-app" := by decide
  rw [Endpoint.label, if_neg (by decide), hkey]

end Labels

/-! ## 3. Into a pod -/

variable {e : Endpoint} {peer : Peer} {port : Port}

/-- Pods of the shop, by their application. -/
theorem matches_app {a : String} :
    (PeerSelector.endpoints [("app", a)]).matches (some "shop") peer = true ↔
      ∃ s, peer = .pod s ∧ InShop s ∧ app s = some a := by
  cases peer with
  | pod s =>
      have hkey : ("app" == namespaceKey) = false := by decide
      simp only [PeerSelector.matches, MatchLabels.matches, List.all_cons, List.all_nil,
        List.any_cons, List.any_nil, label_app, hkey, Option.all_some, Bool.and_true, Bool.or_false,
        Bool.false_or, Bool.and_eq_true, beq_iff_eq, Peer.pod.injEq, exists_eq_left', InShop]
      exact and_comm.trans (and_congr_left' eq_comm)
  | host => simp [PeerSelector.matches]
  | remoteNode => simp [PeerSelector.matches]
  | world names => simp [PeerSelector.matches]

/-- Pods of another namespace, by a label. -/
theorem matches_ns {ns key value : String} :
    (PeerSelector.endpoints [("k8s:io.kubernetes.pod.namespace", ns), (key, value)]).matches
      (some "shop") peer = true ↔ ∃ s, peer = .pod s ∧ s.ns = ns ∧ s.label key = some value := by
  cases peer with
  | pod s =>
      have hkey : ("k8s:io.kubernetes.pod.namespace" == namespaceKey) = true := by decide
      simp only [PeerSelector.matches, MatchLabels.matches, List.all_cons, List.all_nil,
        List.any_cons, label_ns, hkey, Bool.and_true, Bool.true_or, Bool.and_eq_true, beq_iff_eq,
        Option.some.injEq, Peer.pod.injEq, exists_eq_left']
  | host => simp [PeerSelector.matches]
  | remoteNode => simp [PeerSelector.matches]
  | world names => simp [PeerSelector.matches]

theorem matches_host {ns : Option String} :
    PeerSelector.host.matches ns peer = true ↔ peer = .host := by
  cases peer <;> simp [PeerSelector.matches]

theorem matches_fqdn {ns : Option String} {f : FqdnSelector} :
    (PeerSelector.fqdn f).matches ns peer = true ↔
      ∃ names, peer = .world names ∧ ∃ name ∈ names, f.matches name = true := by
  cases peer <;> simp [PeerSelector.matches]

theorem selects_all {p : Policy} (hns : p.ns = some "shop") (hs : p.endpointSelector = []) :
    p.selects e = true ↔ InShop e := by
  simp only [Policy.selects, MatchLabels.matches, hns, hs, List.all_nil, Option.all_some,
    Bool.and_true, beq_iff_eq]
  exact eq_comm

theorem selects_app {p : Policy} {a : String} (hns : p.ns = some "shop")
    (hs : p.endpointSelector = [("app", a)]) : p.selects e = true ↔ InShop e ∧ app e = some a := by
  simp only [Policy.selects, MatchLabels.matches, hns, hs, List.all_cons, List.all_nil,
    Option.all_some, label_app, Bool.and_true, Bool.and_eq_true, beq_iff_eq]
  exact and_congr_left' eq_comm

theorem isolated_shop (d : Direction) (he : InShop e) : isolated policies d e = true := by
  refine isolated_of_mem (p := shopDefaultDeny) List.mem_cons_self
    ((selects_all rfl rfl).mpr he) ?_
  cases d <;> rfl

/-- What a pod of the shop lets in. -/
inductive Enters (d : Endpoint) : Peer → Port → Prop where
  | call (s : Endpoint) (port : Port) (hs : InShop s) (hcall : Call s d port) :
      Enters d (.pod s) port
  | scrape (s : Endpoint) (port : Port) (hs : s.ns = "istio-system") (happ : app s = some "prometheus")
      (hport : port = tcp 15020 ∨ port = tcp 15090) : Enters d (.pod s) port
  | health : Enters d .host (tcp 15021)

theorem opens_ingressFrom {a b : String} {n : Nat} :
    (ingressFrom a b n).Opens .ingress e peer port ↔ (InShop e ∧ app e = some b) ∧
      (∃ s, peer = .pod s ∧ InShop s ∧ app s = some a) ∧ port = tcp n := by
  rw [opens_iff rfl, selects_app rfl rfl]
  simp only [List.mem_singleton, exists_eq_left]
  exact and_congr_right fun _ => and_congr_left' matches_app

theorem opens_egressTo {a b : String} {n : Nat} :
    (egressTo a b n).Opens .egress e peer port ↔ (InShop e ∧ app e = some a) ∧
      (∃ d, peer = .pod d ∧ InShop d ∧ app d = some b) ∧ port = tcp n := by
  rw [opens_iff rfl, selects_app rfl rfl]
  simp only [List.mem_singleton, exists_eq_left]
  exact and_congr_right fun _ => and_congr_left' matches_app

theorem opens_scrape : allowPrometheusScrape.Opens .ingress e peer port ↔ InShop e ∧
    (∃ s, peer = .pod s ∧ s.ns = "istio-system" ∧ app s = some "prometheus") ∧
    (port = tcp 15020 ∨ port = tcp 15090) := by
  rw [opens_iff rfl, selects_all rfl rfl]
  simp only [exists_eq_left, List.mem_cons, List.not_mem_nil, or_false]
  refine and_congr_right fun _ => and_congr_left' (matches_ns.trans ?_)
  simp only [label_k8s_app]

theorem opens_health : denyNodeToWorkload.Opens .ingress e peer port ↔
    InShop e ∧ peer = .host ∧ port = tcp 15021 := by
  have hselects : denyNodeToWorkload.selects e = true ↔ InShop e := by
    simp [Policy.selects, denyNodeToWorkload, MatchLabels.matches, label_ns, InShop]
  rw [opens_iff rfl, hselects]
  simp only [List.mem_singleton, exists_eq_left]
  exact and_congr_right fun _ => and_congr_left' matches_host

theorem ingress_policies : (∃ p ∈ policies, p.Opens .ingress e peer port) ↔
    denyNodeToWorkload.Opens .ingress e peer port ∨ frontendToApi.Opens .ingress e peer port ∨
    apiToOrders.Opens .ingress e peer port ∨ apiToPayments.Opens .ingress e peer port ∨
    ordersToDb.Opens .ingress e peer port ∨ allowPrometheusScrape.Opens .ingress e peer port := by
  have hdeny : shopDefaultDeny.Opens .ingress e peer port ↔ False := not_opens rfl
  have hdns : allowDns.Opens .ingress e peer port ↔ False := not_opens rfl
  have histiod : allowIstiod.Opens .ingress e peer port ↔ False := not_opens rfl
  have hfqdn : allowEgressFqdn.Opens .ingress e peer port ↔ False := not_opens rfl
  have hegress : ∀ a b n, (egressTo a b n).Opens .ingress e peer port ↔ False :=
    fun _ _ _ => not_opens rfl
  simp only [policies, frontendEgressToApi, apiEgressToOrders, apiEgressToPayments,
    ordersEgressToDb, List.mem_cons, List.not_mem_nil, or_false, exists_eq_or_imp, exists_eq_left,
    hdeny, hdns, histiod, hfqdn, hegress, false_or]

/-- **What is let into a pod of the shop.** -/
theorem ingress_iff (he : InShop e) :
    admits policies .ingress e peer port = true ↔ Enters e peer port := by
  rw [admits_iff (isolated_shop .ingress he), ingress_policies, opens_health, opens_scrape]
  simp only [frontendToApi, apiToOrders, apiToPayments, ordersToDb, opens_ingressFrom]
  constructor
  · rintro (⟨_, rfl, rfl⟩ | ⟨⟨_, hd⟩, ⟨s, rfl, hs, ha⟩, hp⟩ | ⟨⟨_, hd⟩, ⟨s, rfl, hs, ha⟩, hp⟩ |
      ⟨⟨_, hd⟩, ⟨s, rfl, hs, ha⟩, hp⟩ | ⟨⟨_, hd⟩, ⟨s, rfl, hs, ha⟩, hp⟩ |
      ⟨_, ⟨s, rfl, hs, ha⟩, hp⟩)
    · exact .health
    · exact .call s port hs ⟨_, _, _, .api, ha, hd, hp⟩
    · exact .call s port hs ⟨_, _, _, .orders, ha, hd, hp⟩
    · exact .call s port hs ⟨_, _, _, .payments, ha, hd, hp⟩
    · exact .call s port hs ⟨_, _, _, .db, ha, hd, hp⟩
    · exact .scrape s port hs ha hp
  · intro h
    cases h with
    | health => exact Or.inl ⟨he, rfl, rfl⟩
    | scrape s port hs ha hp => simp_all
    | call s port hs hcall =>
        obtain ⟨a, b, n, hcalls, ha, hd, hp⟩ := hcall
        cases hcalls <;> simp_all

/-! ## 4. Out of a pod -/

/-- The names that the api may call: below amazonaws.com those of one more label. -/
theorem matches_outside : (∃ x ∈ [PeerSelector.fqdn (.matchName "api.stripe.com"),
      .fqdn (.matchName "example.com"), .fqdn (.matchPattern "*.amazonaws.com")],
      x.matches (some "shop") peer = true) ↔
    ∃ names, peer = .world names ∧ ∃ name ∈ names, Outside name := by
  have hpattern : ∀ name : String,
      (FqdnSelector.matchPattern "*.amazonaws.com").matches name = true ↔
        ∃ label, name.toList = label ++ ".amazonaws.com".toList ∧
          ∀ c ∈ label, nameChar c = true := by
    intro name
    exact star_iff (by decide) name.toList
  have hname : ∀ n name : String, (FqdnSelector.matchName n).matches name = true ↔ name = n :=
    fun n name => beq_iff_eq.trans eq_comm
  simp only [List.mem_cons, List.not_mem_nil, or_false, exists_eq_or_imp, exists_eq_left,
    matches_fqdn, hname, hpattern, ← exists_or, ← and_or_left, Outside]

theorem opens_outside : allowEgressFqdn.Opens .egress e peer port ↔
    (InShop e ∧ app e = some "api") ∧
      (∃ names, peer = .world names ∧ ∃ name ∈ names, Outside name) ∧
      (port = tcp 443 ∨ port = tcp 80) := by
  rw [opens_iff rfl, selects_app rfl rfl]
  refine and_congr_right fun _ => and_congr matches_outside ?_
  simp only [List.mem_cons, List.not_mem_nil, or_false]

theorem opens_dns : allowDns.Opens .egress e peer port ↔ InShop e ∧
    (∃ d, peer = .pod d ∧ d.ns = "kube-system" ∧
      (d.labels.lookup "k8s-app" = some "kube-dns" ∨ d.labels.lookup "k8s-app" = some "coredns")) ∧
    (port = ⟨53, .UDP⟩ ∨ port = ⟨53, .TCP⟩) := by
  rw [opens_iff rfl, selects_all rfl rfl]
  refine and_congr_right fun _ => and_congr ?_ ?_
  · simp only [List.mem_cons, List.not_mem_nil, or_false, exists_eq_or_imp, exists_eq_left]
    refine (or_congr matches_ns matches_ns).trans ?_
    simp only [label_dns, ← exists_or, ← and_or_left]
  · simp only [List.mem_cons, List.not_mem_nil, or_false]

theorem opens_istiod : allowIstiod.Opens .egress e peer port ↔ InShop e ∧
    (∃ d, peer = .pod d ∧ d.ns = "istio-system" ∧ app d = some "istiod") ∧
    (port = tcp 15010 ∨ port = tcp 15012 ∨ port = tcp 443) := by
  rw [opens_iff rfl, selects_all rfl rfl]
  simp only [exists_eq_left, List.mem_cons, List.not_mem_nil, or_false]
  refine and_congr_right fun _ => and_congr_left' (matches_ns.trans ?_)
  simp only [label_k8s_app]

theorem egress_policies : (∃ p ∈ policies, p.Opens .egress e peer port) ↔
    allowDns.Opens .egress e peer port ∨ allowIstiod.Opens .egress e peer port ∨
    frontendEgressToApi.Opens .egress e peer port ∨ apiEgressToOrders.Opens .egress e peer port ∨
    apiEgressToPayments.Opens .egress e peer port ∨ ordersEgressToDb.Opens .egress e peer port ∨
    allowEgressFqdn.Opens .egress e peer port := by
  have hdeny : shopDefaultDeny.Opens .egress e peer port ↔ False := not_opens rfl
  have hnode : denyNodeToWorkload.Opens .egress e peer port ↔ False := not_opens rfl
  have hscrape : allowPrometheusScrape.Opens .egress e peer port ↔ False := not_opens rfl
  have hingress : ∀ a b n, (ingressFrom a b n).Opens .egress e peer port ↔ False :=
    fun _ _ _ => not_opens rfl
  simp only [policies, frontendToApi, apiToOrders, apiToPayments, ordersToDb, List.mem_cons,
    List.not_mem_nil, or_false, exists_eq_or_imp, exists_eq_left, hdeny, hnode, hscrape, hingress,
    false_or]

/-- What a pod of the shop is let out to. -/
inductive Leaves (s : Endpoint) : Peer → Port → Prop where
  | call (d : Endpoint) (port : Port) (hd : InShop d) (hcall : Call s d port) :
      Leaves s (.pod d) port
  | dns (d : Endpoint) (port : Port) (hd : d.ns = "kube-system")
      (hlabel : d.labels.lookup "k8s-app" = some "kube-dns" ∨
        d.labels.lookup "k8s-app" = some "coredns")
      (hport : port = ⟨53, .UDP⟩ ∨ port = ⟨53, .TCP⟩) : Leaves s (.pod d) port
  | istiod (d : Endpoint) (port : Port) (hd : d.ns = "istio-system") (happ : app d = some "istiod")
      (hport : port = tcp 15010 ∨ port = tcp 15012 ∨ port = tcp 443) : Leaves s (.pod d) port
  | outside (names : List String) (port : Port) (happ : app s = some "api") (name : String)
      (hmem : name ∈ names) (hname : Outside name) (hport : port = tcp 443 ∨ port = tcp 80) :
      Leaves s (.world names) port

/-- **What a pod of the shop is let out to.** -/
theorem egress_iff (he : InShop e) :
    admits policies .egress e peer port = true ↔ Leaves e peer port := by
  rw [admits_iff (isolated_shop .egress he), egress_policies, opens_dns, opens_istiod,
    opens_outside]
  simp only [frontendEgressToApi, apiEgressToOrders, apiEgressToPayments, ordersEgressToDb,
    opens_egressTo]
  constructor
  · rintro (⟨_, ⟨d, rfl, hd, hl⟩, hp⟩ | ⟨_, ⟨d, rfl, hd, ha⟩, hp⟩ |
      ⟨⟨_, ha⟩, ⟨d, rfl, hd, hb⟩, hp⟩ | ⟨⟨_, ha⟩, ⟨d, rfl, hd, hb⟩, hp⟩ |
      ⟨⟨_, ha⟩, ⟨d, rfl, hd, hb⟩, hp⟩ | ⟨⟨_, ha⟩, ⟨d, rfl, hd, hb⟩, hp⟩ |
      ⟨⟨_, ha⟩, ⟨names, rfl, name, hmem, hname⟩, hp⟩)
    · exact .dns d port hd hl hp
    · exact .istiod d port hd ha hp
    · exact .call d port hd ⟨_, _, _, .api, ha, hb, hp⟩
    · exact .call d port hd ⟨_, _, _, .orders, ha, hb, hp⟩
    · exact .call d port hd ⟨_, _, _, .payments, ha, hb, hp⟩
    · exact .call d port hd ⟨_, _, _, .db, ha, hb, hp⟩
    · exact .outside names port ha name hmem hname hp
  · intro h
    cases h with
    | dns d port hd hl hp => simp_all
    | istiod d port hd ha hp => simp_all
    | outside names port ha name hmem hname hp => simp_all; exact ⟨name, hmem, hname⟩
    | call d port hd hcall =>
        obtain ⟨a, b, n, hcalls, ha, hb, hp⟩ := hcall
        cases hcalls <;> simp_all

/-! ## 5. Connections -/

/-- Whom no policy selects. -/
theorem unselected (he : ¬ InShop e) : ∀ p ∈ policies, p.selects e = false := by
  have hns : ("shop" == e.ns) = false := beq_eq_false_iff_ne.mpr fun h => he h.symm
  have hlabel : (some e.ns == some "shop") = false :=
    beq_eq_false_iff_ne.mpr fun h => he (Option.some.inj h)
  intro p hp
  simp only [policies, List.mem_cons, List.not_mem_nil, or_false] at hp
  rcases hp with rfl | rfl | rfl | rfl | rfl | rfl | rfl | rfl | rfl | rfl | rfl | rfl | rfl | rfl <;>
    simp [Policy.selects, MatchLabels.matches, label_ns, hns, hlabel, shopDefaultDeny,
      denyNodeToWorkload, allowDns, allowIstiod, frontendToApi, frontendEgressToApi, apiToOrders,
      apiEgressToOrders, apiToPayments, apiEgressToPayments, ordersToDb, ordersEgressToDb,
      allowPrometheusScrape, allowEgressFqdn, ingressFrom, egressTo]

/-- The peer is a pod of the shop. -/
def Peer.InShop : Peer → Prop
  | .pod e => ZeroTrust.InShop e
  | _ => False

/-- **The connections that are meant**, with an end in the shop; the others are nobody's business
    here. -/
inductive Intended (localhost : Bool) : Connection → Prop where
  | call (s d : Endpoint) (port : Port) (hs : InShop s) (hd : InShop d) (hcall : Call s d port) :
      Intended localhost ⟨.pod s, .pod d, port⟩
  | leaves (s : Endpoint) (dest : Peer) (port : Port) (hs : InShop s) (hd : ¬ Peer.InShop dest)
      (hleaves : Leaves s dest port) : Intended localhost ⟨.pod s, dest, port⟩
  | enters (d : Endpoint) (source : Peer) (port : Port) (hd : InShop d) (hs : ¬ Peer.InShop source)
      (henters : Enters d source port) : Intended localhost ⟨source, .pod d, port⟩
  | node (d : Endpoint) (port : Port) (hd : InShop d) (hlocalhost : localhost = true) :
      Intended localhost ⟨.host, .pod d, port⟩
  | elsewhere (source dest : Peer) (port : Port) (hs : ¬ Peer.InShop source)
      (hd : ¬ Peer.InShop dest) : Intended localhost ⟨source, dest, port⟩

section Connections

variable {localhost : Bool} {source dest : Peer}

theorem leaves_iff : leaves policies ⟨source, dest, port⟩ = true ↔
    ∀ s, source = .pod s → InShop s → Leaves s dest port := by
  cases source with
  | pod s =>
      constructor
      · intro h s' heq hs
        cases heq
        exact (egress_iff hs).mp h
      · intro h
        by_cases hs : InShop s
        · exact (egress_iff hs).mpr (h s rfl hs)
        · exact admits_of_unselected (unselected hs)
  | host => exact ⟨fun _ => nofun, fun _ => rfl⟩
  | remoteNode => exact ⟨fun _ => nofun, fun _ => rfl⟩
  | world names => exact ⟨fun _ => nofun, fun _ => rfl⟩

theorem enters_iff : enters policies localhost ⟨source, dest, port⟩ = true ↔
    ∀ d, dest = .pod d → InShop d →
      Enters d source port ∨ localhost = true ∧ source = .host := by
  cases dest with
  | pod d =>
      have hadmits : enters policies localhost ⟨source, .pod d, port⟩ = true ↔
          admits policies .ingress d source port = true ∨ localhost = true ∧ source = .host := by
        cases source with
        | host => exact (Bool.or_eq_true _ _).to_iff.trans (or_comm.trans (by simp))
        | pod s => exact ⟨Or.inl, fun h => h.elim id nofun⟩
        | remoteNode => exact ⟨Or.inl, fun h => h.elim id nofun⟩
        | world names => exact ⟨Or.inl, fun h => h.elim id nofun⟩
      rw [hadmits]
      constructor
      · intro h d' heq hd
        cases heq
        exact h.imp_left (ingress_iff hd).mp
      · intro h
        by_cases hd : InShop d
        · exact (h d rfl hd).imp_left (ingress_iff hd).mpr
        · exact Or.inl (admits_of_unselected (unselected hd))
  | host =>
      refine ⟨fun _ => nofun, fun _ => ?_⟩
      cases source <;> rfl
  | remoteNode =>
      refine ⟨fun _ => nofun, fun _ => ?_⟩
      cases source <;> rfl
  | world names =>
      refine ⟨fun _ => nofun, fun _ => ?_⟩
      cases source <;> rfl

/-- Inside the shop one is let out to whom one calls. -/
theorem leaves_inShop {s d : Endpoint} (hd : InShop d) (h : Leaves s (.pod d) port) :
    Call s d port := by
  cases h with
  | call d port hd hcall => exact hcall
  | dns d port hns _ _ => exact absurd (hns.symm.trans hd) (by decide)
  | istiod d port hns _ _ => exact absurd (hns.symm.trans hd) (by decide)

/-- **Everything that is let through is meant, and everything meant is let through**: for any two ends,
    of the shop or not, and any port. -/
theorem allowed_iff (localhost : Bool) (c : Connection) :
    allowed policies localhost c = true ↔ Intended localhost c := by
  obtain ⟨source, dest, port⟩ := c
  rw [allowed, Bool.and_eq_true, leaves_iff, enters_iff]
  constructor
  · intro h
    obtain ⟨hleaves, henters⟩ := h
    by_cases hs : Peer.InShop source
    · cases source with
      | pod s =>
          have hout : Leaves s dest port := hleaves s rfl hs
          by_cases hd : Peer.InShop dest
          · cases dest with
            | pod d => exact .call s d port hs hd (leaves_inShop hd hout)
            | host => exact hd.elim
            | remoteNode => exact hd.elim
            | world names => exact hd.elim
          · exact .leaves s dest port hs hd hout
      | host => exact hs.elim
      | remoteNode => exact hs.elim
      | world names => exact hs.elim
    · by_cases hd : Peer.InShop dest
      · cases dest with
        | pod d =>
            rcases henters d rfl hd with hin | ⟨hlocalhost, rfl⟩
            · exact .enters d source port hd hs hin
            · exact .node d port hd hlocalhost
        | host => exact hd.elim
        | remoteNode => exact hd.elim
        | world names => exact hd.elim
      · exact .elsewhere source dest port hs hd
  · intro h
    cases h with
    | call s d port hs hd hcall =>
        constructor
        · intro s' heq _
          cases heq
          exact .call d port hd hcall
        · intro d' heq _
          cases heq
          exact Or.inl (.call s port hs hcall)
    | leaves s dest port hs hd hout =>
        constructor
        · intro s' heq _
          cases heq
          exact hout
        · intro d heq hin
          cases heq
          exact absurd hin hd
    | enters d source port hd hs hin =>
        constructor
        · intro s heq hout
          cases heq
          exact absurd hout hs
        · intro d' heq _
          cases heq
          exact Or.inl hin
    | node d port hd hlocalhost =>
        exact ⟨nofun, fun _ _ _ => Or.inr ⟨hlocalhost, rfl⟩⟩
    | elsewhere source dest port hs hd =>
        constructor
        · intro s heq hout
          cases heq
          exact absurd hout hs
        · intro d heq hin
          cases heq
          exact absurd hin hd

/-- **Inside the shop** what is let through is the calls of the applications. -/
theorem allowed_inShop {s d : Endpoint} (hs : InShop s) (hd : InShop d) :
    allowed policies localhost ⟨.pod s, .pod d, port⟩ = true ↔ Call s d port := by
  rw [allowed_iff]
  constructor
  · intro h
    cases h with
    | call _ _ _ _ _ hcall => exact hcall
    | leaves _ _ _ _ hd' _ => exact absurd hd hd'
    | enters _ _ _ _ hs' _ => exact absurd hs hs'
    | elsewhere _ _ _ hs' _ => exact absurd hs hs'
  · exact fun hcall => .call s d port hs hd hcall

end Connections

/-! ## 6. Paths -/

/-- The lines of the shop, from the front to the back. -/
def lines : List (List String) := [["frontend", "api", "orders", "db"], ["frontend", "api", "payments"]]

/-- One application may call the other, on some port. -/
def Next (a b : Option String) : Prop := ∃ x y n, a = some x ∧ b = some y ∧ Calls x y n

/-- Inside the shop connections are calls. -/
theorem next_of_allowed {localhost : Bool} {s d : Endpoint} (hs : InShop s) (hd : InShop d)
    (h : allowed policies localhost ⟨.pod s, .pod d, port⟩ = true) : Next (app s) (app d) := by
  obtain ⟨a, b, n, hcalls, ha, hb, _⟩ := (allowed_inShop hs hd).mp h
  exact ⟨a, b, n, ha, hb, hcalls⟩

section Paths

variable {as : List (Option String)}

theorem Calls.source {a b : String} {n : Nat} (h : Calls a b n) :
    a = "frontend" ∨ a = "api" ∨ a = "orders" := by
  cases h <;> simp

/-- Whoever calls nobody is the end of the path. -/
theorem path_last {a : String} (ha : ¬ (a = "frontend" ∨ a = "api" ∨ a = "orders"))
    (h : List.IsChain Next (some a :: as)) : as = [] := by
  cases as with
  | nil => rfl
  | cons b as =>
      obtain ⟨x, y, n, hx, _, hcalls⟩ := (List.isChain_cons_cons.mp h).1
      cases hx
      exact absurd hcalls.source ha

theorem path_orders (h : List.IsChain Next (some "orders" :: as)) :
    as = [] ∨ as = [some "db"] := by
  cases as with
  | nil => exact Or.inl rfl
  | cons b as =>
      obtain ⟨⟨x, y, n, hx, rfl, hcalls⟩, htail⟩ := List.isChain_cons_cons.mp h
      cases hcalls with
      | db =>
          rw [path_last (by decide) htail]
          exact Or.inr rfl
      | api | orders | payments => simp at hx

theorem path_api (h : List.IsChain Next (some "api" :: as)) :
    as = [] ∨ (∃ bs, as = some "orders" :: bs ∧ (bs = [] ∨ bs = [some "db"])) ∨
      as = [some "payments"] := by
  cases as with
  | nil => exact Or.inl rfl
  | cons b as =>
      obtain ⟨⟨x, y, n, hx, rfl, hcalls⟩, htail⟩ := List.isChain_cons_cons.mp h
      cases hcalls with
      | orders => exact Or.inr (Or.inl ⟨as, rfl, path_orders htail⟩)
      | payments =>
          rw [path_last (by decide) htail]
          exact Or.inr (Or.inr rfl)
      | api | db => simp at hx

/-- Pods of which each may open a connection to the next. -/
def Path (localhost : Bool) (es : List Endpoint) : Prop :=
  es.IsChain fun s d => ∃ port, allowed policies localhost ⟨.pod s, .pod d, port⟩ = true

theorem Path.next {localhost : Bool} {es : List Endpoint} (hshop : ∀ e ∈ es, InShop e)
    (h : Path localhost es) : List.IsChain Next (es.map app) := by
  rw [List.isChain_map]
  refine List.IsChain.imp_of_mem_imp ?_ h
  intro s d hs hd hport
  obtain ⟨port, hallowed⟩ := hport
  exact next_of_allowed (hshop s hs) (hshop d hd) hallowed

/-- **A path of connections inside the shop** is a stretch of one of its lines: whoever has taken over
    the frontend gets to the database by way of the api and of the orders, and from the payments or from
    the database nowhere. -/
theorem path_infix {localhost : Bool} {s d : Endpoint} {es : List Endpoint}
    (hshop : ∀ e ∈ s :: d :: es, InShop e) (h : Path localhost (s :: d :: es)) :
    ∃ line ∈ lines, (s :: d :: es).map app <:+: line.map some := by
  have hnext : List.IsChain Next (app s :: app d :: es.map app) := h.next hshop
  obtain ⟨⟨x, y, n, hx, hy, hcalls⟩, htail⟩ := List.isChain_cons_cons.mp hnext
  simp only [List.map_cons, hx, hy]
  rw [hy] at htail
  cases hcalls with
  | api =>
      rcases path_api htail with hes | ⟨bs, hes, rfl | rfl⟩ | hes <;> rw [hes] <;> decide
  | orders =>
      rcases path_orders htail with hes | hes <;> rw [hes] <;> decide
  | payments =>
      rw [path_last (by decide) htail]
      decide
  | db =>
      rw [path_last (by decide) htail]
      decide

/-- A pod of apps.yaml. -/
def podOf (name : String) : Endpoint := ⟨"shop", Finmap.singleton "app" name⟩

theorem app_podOf (name : String) : app (podOf name) = some name := Finmap.lookup_singleton_eq

theorem path_podOf {a b : String} {n : Nat} (h : Calls a b n) :
    ∃ port, allowed policies false ⟨.pod (podOf a), .pod (podOf b), port⟩ = true := by
  have ha : InShop (podOf a) := rfl
  have hb : InShop (podOf b) := rfl
  exact ⟨tcp n, (allowed_inShop ha hb).mpr ⟨a, b, n, h, app_podOf a, app_podOf b, rfl⟩⟩

/-- The longest path there is. -/
theorem path_infix_db : ∃ line ∈ lines,
    [podOf "frontend", podOf "api", podOf "orders", podOf "db"].map app <:+: line.map some := by
  have hpath : Path false [podOf "frontend", podOf "api", podOf "orders", podOf "db"] := by
    simp only [Path, List.isChain_cons_cons, List.isChain_singleton, and_true]
    exact ⟨path_podOf .api, path_podOf .orders, path_podOf .db⟩
  have hshop : ∀ e ∈ [podOf "frontend", podOf "api", podOf "orders", podOf "db"], InShop e := by
    simp [podOf, InShop]
  exact path_infix hshop hpath

end Paths

end ZeroTrust
