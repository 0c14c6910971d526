/-
  File:      BlogDemo/ZeroTrust/Requests.lean
  Subject:   THE REQUESTS OF THE SHOP (k8s-zerotrust, istio-authz.yaml and istio-mtls.yaml over the cilium-*.yaml):
             what gets through the network and through the sidecar.

  * `authz` -- the policies, under their names in the source;
  * `serves` -- a request gets to its workload;
  * **`serves_iff`** -- which requests those are, between any two pods of the shop.
-/
import BlogDemo.Lib.Kube.Mesh
import BlogDemo.ZeroTrust.Shop

namespace ZeroTrust

open Network Mesh

/-! ## 1. The policies -/

/-- The pods of the application take these requests from whoever has the service account of the shop. -/
def allowTo (dest : String) (methods paths : List String) : AuthorizationPolicy where
  ns := "shop"
  selector := [("app", dest)]
  rules := [⟨[⟨["cluster.local/ns/shop/sa/default"]⟩], [⟨methods, paths⟩]⟩]

def apiAllowFromFrontend : AuthorizationPolicy :=
  allowTo "api" ["GET", "POST"] ["/orders", "/payments"]

def ordersAllowFromApi : AuthorizationPolicy := allowTo "orders" ["GET", "POST"] ["/orders"]

def paymentsAllowFromApi : AuthorizationPolicy := allowTo "payments" ["POST"] ["/pay"]

def authz : List AuthorizationPolicy :=
  [apiAllowFromFrontend, ordersAllowFromApi, paymentsAllowFromApi]

/-- istio-mtls.yaml: the mode of `shop-mtls` is STRICT. -/
def shopMtls (r : Request) : Bool := r.dest.ns != "shop" || r.mtls

/-- **The request gets to its workload.** -/
def serves (localhost : Bool) (r : Request) : Bool :=
  allowed policies localhost ⟨.pod r.source, .pod r.dest, r.port⟩ && shopMtls r && authorized authz r

/-! ## 2. What gets through -/

/-- **The requests that are meant**: a call, with the service account of the shop and as the callee
    offers it; the database is asked without more. -/
inductive Wanted (r : Request) : Prop where
  | api (hs : app r.source = some "frontend") (hd : app r.dest = some "api") (hport : r.port = tcp 80)
      (haccount : r.serviceAccount = "default") (hmethod : r.method ∈ ["GET", "POST"])
      (hpath : r.path ∈ ["/orders", "/payments"])
  | orders (hs : app r.source = some "api") (hd : app r.dest = some "orders")
      (hport : r.port = tcp 80) (haccount : r.serviceAccount = "default")
      (hmethod : r.method ∈ ["GET", "POST"]) (hpath : r.path ∈ ["/orders"])
  | payments (hs : app r.source = some "api") (hd : app r.dest = some "payments")
      (hport : r.port = tcp 80) (haccount : r.serviceAccount = "default")
      (hmethod : r.method ∈ ["POST"]) (hpath : r.path ∈ ["/pay"])
  | db (hs : app r.source = some "orders") (hd : app r.dest = some "db") (hport : r.port = tcp 5432)

variable {r : Request}

/-- The principal of the shop is its service account. -/
theorem principal_iff (hs : InShop r.source) (hmtls : r.mtls = true) :
    r.principal = some "cluster.local/ns/shop/sa/default" ↔ r.serviceAccount = "default" := by
  have htext : "cluster.local/ns/shop/sa/default" =
      "cluster.local/ns/" ++ "shop" ++ "/sa/" ++ "default" := by decide
  rw [Request.principal, if_pos hmtls, hs, htext, Option.some.injEq]
  exact String.append_right_inj _

theorem allowTo_selects {dest : String} {methods paths : List String} (hd : InShop r.dest) :
    (allowTo dest methods paths).selects r.dest = true ↔ app r.dest = some dest := by
  simp [AuthorizationPolicy.selects, allowTo, MatchLabels.matches, label_app, hd.symm]

theorem allowTo_allows {dest : String} {methods paths : List String} (hs : InShop r.source)
    (hd : InShop r.dest) (hmtls : r.mtls = true) : (allowTo dest methods paths).Allows r ↔
      app r.dest = some dest ∧ r.serviceAccount = "default" ∧ r.method ∈ methods ∧
        r.path ∈ paths := by
  rw [allows_iff rfl, allowTo_selects hd, principal_iff hs hmtls]

/-- What a sidecar of the shop lets through. -/
theorem authorized_authz (hs : InShop r.source) (hd : InShop r.dest) (hmtls : r.mtls = true) :
    authorized authz r = true ↔
      (app r.dest ≠ some "api" ∧ app r.dest ≠ some "orders" ∧ app r.dest ≠ some "payments") ∨
      (app r.dest = some "api" ∧ r.serviceAccount = "default" ∧ r.method ∈ ["GET", "POST"] ∧
        r.path ∈ ["/orders", "/payments"]) ∨
      (app r.dest = some "orders" ∧ r.serviceAccount = "default" ∧ r.method ∈ ["GET", "POST"] ∧
        r.path ∈ ["/orders"]) ∨
      (app r.dest = some "payments" ∧ r.serviceAccount = "default" ∧ r.method ∈ ["POST"] ∧
        r.path ∈ ["/pay"]) := by
  have hunselected : ∀ dest methods paths,
      (allowTo dest methods paths).selects r.dest = false ↔ app r.dest ≠ some dest :=
    fun _ _ _ => Bool.eq_false_iff.trans (not_congr (allowTo_selects hd))
  rw [authorized_iff]
  simp only [authz, apiAllowFromFrontend, ordersAllowFromApi, paymentsAllowFromApi, List.mem_cons,
    List.not_mem_nil, or_false, forall_eq_or_imp, forall_eq, exists_eq_or_imp, exists_eq_left,
    hunselected, allowTo_allows hs hd hmtls]

/-- **What gets through the network and the sidecar**, between any two pods of the shop. -/
theorem serves_iff (localhost : Bool) (hs : InShop r.source) (hd : InShop r.dest) :
    serves localhost r = true ↔ r.mtls = true ∧ Wanted r := by
  have hmode : shopMtls r = true ↔ r.mtls = true := by
    rw [shopMtls, hd]
    exact Iff.rfl
  rw [serves, Bool.and_eq_true, Bool.and_eq_true, allowed_inShop hs hd, hmode]
  constructor
  · intro h
    obtain ⟨⟨⟨a, b, n, hcalls, ha, hb, hport⟩, hmtls⟩, hauthorized⟩ := h
    refine ⟨hmtls, ?_⟩
    rw [authorized_authz hs hd hmtls, hb] at hauthorized
    cases hcalls with
    | api =>
        have hgrant : r.serviceAccount = "default" ∧ r.method ∈ ["GET", "POST"] ∧
            r.path ∈ ["/orders", "/payments"] := by simpa using hauthorized
        exact .api ha hb hport hgrant.1 hgrant.2.1 hgrant.2.2
    | orders =>
        have hgrant : r.serviceAccount = "default" ∧ r.method ∈ ["GET", "POST"] ∧
            r.path ∈ ["/orders"] := by simpa using hauthorized
        exact .orders ha hb hport hgrant.1 hgrant.2.1 hgrant.2.2
    | payments =>
        have hgrant : r.serviceAccount = "default" ∧ r.method ∈ ["POST"] ∧ r.path ∈ ["/pay"] := by
          simpa using hauthorized
        exact .payments ha hb hport hgrant.1 hgrant.2.1 hgrant.2.2
    | db => exact .db ha hb hport
  · intro h
    obtain ⟨hmtls, hwanted⟩ := h
    rw [authorized_authz hs hd hmtls]
    cases hwanted with
    | api ha hb hport haccount hmethod hpath =>
        exact ⟨⟨⟨_, _, _, .api, ha, hb, hport⟩, hmtls⟩,
          Or.inr (Or.inl ⟨hb, haccount, hmethod, hpath⟩)⟩
    | orders ha hb hport haccount hmethod hpath =>
        exact ⟨⟨⟨_, _, _, .orders, ha, hb, hport⟩, hmtls⟩,
          Or.inr (Or.inr (Or.inl ⟨hb, haccount, hmethod, hpath⟩))⟩
    | payments ha hb hport haccount hmethod hpath =>
        exact ⟨⟨⟨_, _, _, .payments, ha, hb, hport⟩, hmtls⟩,
          Or.inr (Or.inr (Or.inr ⟨hb, haccount, hmethod, hpath⟩))⟩
    | db ha hb hport =>
        refine ⟨⟨⟨_, _, _, .db, ha, hb, hport⟩, hmtls⟩, Or.inl ?_⟩
        rw [hb]
        decide

theorem serves_iff_orders : serves true ⟨podOf "api", "default", true, podOf "orders", tcp 80, "GET",
    "/orders"⟩ = true := by
  have hs : InShop (podOf "api") := rfl
  have hd : InShop (podOf "orders") := rfl
  exact (serves_iff true hs hd).mpr ⟨rfl, .orders (app_podOf _) (app_podOf _) rfl rfl (by decide)
    (by decide)⟩

end ZeroTrust
