/-
  File:      BlogDemo/Istio/RateLimit.lean
  Subject:   THE GATEWAY AND ITS RATE LIMIT (k8s-istio-example): two routes, one to the versions of myapp and
             one to otherapp, whose sidecar keeps a token bucket.

  Requests come one after the other, each at its time; the choice between the versions of myapp is
  part of the request.

  * `toBackend`, **`toBackend_other_iff`** -- where a request goes;
  * `answers` -- the answers to the requests of a run;
  * **`unlimited_iff`** -- none of them is 429 exactly when the requests to otherapp conform to the
    bucket;
  * **`other_served_le`** -- any stretch of them has ten served, and five more for every minute begun,
    and the requests to others are answered as without a limit.
-/
import BlogDemo.Lib.TokenBucket

namespace Istio

open TokenBucket

/-! ## 1. Routes -/

inductive Service where
  | myappV1
  | myappV2
  | otherapp
  deriving DecidableEq, Repr

/-- A rule of an HTTPRoute: a path prefix, and services with their weights. -/
structure RouteRule where
  pathPrefix : List Char
  backendRefs : List (Service × ℕ)

/-- httproute-myapp.yaml -/
def myappRoute : RouteRule where
  pathPrefix := "/".toList
  backendRefs := [(.myappV1, 80), (.myappV2, 20)]

/-- httproute-otherapp.yaml -/
def otherRoute : RouteRule where
  pathPrefix := "/other".toList
  backendRefs := [(.otherapp, 1)]

/-- A prefix is met element by element; a slash at its end does not count. -/
def RouteRule.matches (r : RouteRule) (path : List Char) : Bool :=
  let value := if r.pathPrefix.getLast? = some '/' then r.pathPrefix.dropLast else r.pathPrefix
  path == value || (value ++ ['/']).isPrefixOf path

/-- The rule with the longest prefix among those that match. -/
def select (rules : List RouteRule) (path : List Char) : Option RouteRule :=
  (rules.filter (·.matches path)).foldl (fun best r =>
    match best with
    | none => some r
    | some b => if b.pathPrefix.length < r.pathPrefix.length then some r else some b) none

/-- The service that a number below the sum of the weights stands for. -/
def pick : List (Service × ℕ) → ℕ → Option Service
  | [], _ => none
  | (s, weight) :: rest, n => if n < weight then some s else pick rest (n - weight)

def totalWeight : List (Service × ℕ) → ℕ
  | [] => 0
  | (_, weight) :: rest => weight + totalWeight rest

structure Request where
  time : ℕ
  path : List Char
  /-- What is drawn for the weights. -/
  draw : ℕ

def toBackend (r : Request) : Option Service :=
  (select [myappRoute, otherRoute] r.path).bind fun rule =>
    pick rule.backendRefs (r.draw % totalWeight rule.backendRefs)

/-- The path is that of otherapp, or below it. -/
def OtherPath (path : List Char) : Prop := path = "/other".toList ∨ "/other/".toList <+: path

instance : DecidablePred OtherPath := fun path =>
  inferInstanceAs (Decidable (path = "/other".toList ∨ "/other/".toList <+: path))

theorem otherRoute_matches (path : List Char) : otherRoute.matches path = true ↔ OtherPath path := by
  show (path == "/other".toList || ("/other".toList ++ ['/']).isPrefixOf path) = true ↔ _
  rw [Bool.or_eq_true, beq_iff_eq, List.isPrefixOf_iff_prefix]
  exact Iff.rfl

/-- The longer prefix wins where both match. -/
theorem select_routes (path : List Char) : select [myappRoute, otherRoute] path =
    if otherRoute.matches path then some otherRoute
    else if myappRoute.matches path then some myappRoute else none := by
  cases hm : myappRoute.matches path <;> cases ho : otherRoute.matches path <;>
    simp [select, hm, ho]
  exact fun h => absurd h (by decide)

theorem pick_myapp (n : ℕ) : pick myappRoute.backendRefs n ≠ some .otherapp := by
  rw [myappRoute, pick, pick, pick]
  split
  · simp
  · split <;> simp

/-- **otherapp gets its path and what is below it**, and no other. -/
theorem toBackend_other_iff (r : Request) : toBackend r = some .otherapp ↔ OtherPath r.path := by
  rw [← otherRoute_matches, toBackend, select_routes]
  by_cases ho : otherRoute.matches r.path = true
  · rw [if_pos ho]
    refine iff_of_true ?_ ho
    have hdraw : r.draw % totalWeight otherRoute.backendRefs = 0 := Nat.mod_one r.draw
    rw [Option.bind_some, hdraw]
    rfl
  · rw [if_neg ho]
    refine iff_of_false ?_ ho
    split
    · exact pick_myapp _
    · exact nofun

/-! ## 2. The rate limit -/

/-- The token bucket of istio-envoy-filter.yaml, in milliseconds. -/
def ingressLocalRatelimit : Config where
  maxTokens := 10
  tokensPerFill := 5
  fillInterval := 60000

inductive Answer where
  | notFound
  | ofService (s : Service)
  /-- 429, with `x-rate-limited: TOO_MANY_REQUESTS`. -/
  | rateLimited
  deriving DecidableEq, Repr

/-- The filter is in the sidecar of otherapp, before the application. -/
def answer (b : Bucket) (r : Request) : Answer × Bucket :=
  match toBackend r with
  | none => (.notFound, b)
  | some .otherapp =>
    let (served, b) := ingressLocalRatelimit.request b r.time
    (if served then .ofService .otherapp else .rateLimited, b)
  | some s => (.ofService s, b)

/-- The answer where nothing is limited. -/
def routed (r : Request) : Answer :=
  match toBackend r with
  | none => .notFound
  | some s => .ofService s

/-- **The answers to requests**, one after the other. -/
def answers : Bucket → List Request → List Answer
  | _, [] => []
  | b, r :: rs => (answer b r).1 :: answers (answer b r).2 rs

/-- The times of the requests to otherapp. -/
def otherTimes (rs : List Request) : List ℕ :=
  (rs.filter fun r => toBackend r == some .otherapp).map (·.time)

/-- The bucket after requests. -/
def bucketAfter : Bucket → List Request → Bucket
  | b, [] => b
  | b, r :: rs => bucketAfter (answer b r).2 rs

section Requests

variable {b : Bucket} {r : Request} {rs : List Request}

/-- A request to otherapp is one for the bucket. -/
theorem answer_other (h : toBackend r = some .otherapp) : answer b r =
    (if (ingressLocalRatelimit.request b r.time).1 then .ofService .otherapp else .rateLimited,
      (ingressLocalRatelimit.request b r.time).2) := by
  rw [answer, h]

/-- Another does not get to it. -/
theorem answer_else (h : toBackend r ≠ some .otherapp) : (answer b r).2 = b ∧
    (answer b r).1 ≠ .rateLimited ∧ (answer b r).1 ≠ .ofService .otherapp := by
  rw [answer]
  cases hs : toBackend r with
  | none => simp
  | some s =>
      cases s with
      | otherapp => exact absurd hs h
      | myappV1 => simp
      | myappV2 => simp

theorem answer_routed (h : toBackend r ≠ some .otherapp) : (answer b r).1 = routed r := by
  rw [answer, routed]
  cases hs : toBackend r with
  | none => rfl
  | some s =>
      cases s with
      | otherapp => exact absurd hs h
      | myappV1 => rfl
      | myappV2 => rfl

/-- **Whatever came before**, another request is answered as without a limit. -/
theorem answers_routed (b : Bucket) (rs : List Request) {i : ℕ} (hi : rs[i]? = some r)
    (h : toBackend r ≠ some .otherapp) : (answers b rs)[i]? = some (routed r) := by
  induction rs generalizing b i with
  | nil => cases hi
  | cons x rs ih =>
      rw [answers]
      cases i with
      | zero =>
          cases hi
          exact congrArg some (answer_routed h)
      | succ i => exact ih _ hi

/-- The requests to otherapp are told by their paths. -/
theorem otherTimes_eq (rs : List Request) :
    otherTimes rs = (rs.filter fun r => OtherPath r.path).map (·.time) := by
  rw [otherTimes]
  congr 1
  refine List.filter_congr fun r _ => ?_
  rw [Bool.eq_iff_iff, beq_iff_eq, decide_eq_true_iff]
  exact toBackend_other_iff r

theorem otherTimes_other (h : toBackend r = some .otherapp) :
    otherTimes (r :: rs) = r.time :: otherTimes rs := by
  rw [otherTimes, List.filter_cons, if_pos (beq_iff_eq.mpr h), List.map_cons, ← otherTimes]

theorem otherTimes_else (h : toBackend r ≠ some .otherapp) :
    otherTimes (r :: rs) = otherTimes rs := by
  rw [otherTimes, List.filter_cons, if_neg (mt beq_iff_eq.mp h), ← otherTimes]

theorem otherTimes_append (xs ys : List Request) :
    otherTimes (xs ++ ys) = otherTimes xs ++ otherTimes ys := by
  rw [otherTimes, List.filter_append, List.map_append, ← otherTimes, ← otherTimes]

theorem answers_append (b : Bucket) (xs ys : List Request) :
    answers b (xs ++ ys) = answers b xs ++ answers (bucketAfter b xs) ys := by
  induction xs generalizing b with
  | nil => rfl
  | cons x xs ih => rw [List.cons_append, answers, answers, bucketAfter, ih, List.cons_append]

theorem answers_length (b : Bucket) (rs : List Request) : (answers b rs).length = rs.length := by
  induction rs generalizing b with
  | nil => rfl
  | cons r rs ih => rw [answers, List.length_cons, ih, List.length_cons]

/-- **What becomes of the requests to otherapp** is what the bucket makes of their times. -/
theorem answers_serve (b : Bucket) (rs : List Request) :
    (Answer.rateLimited ∈ answers b rs ↔ false ∈ ingressLocalRatelimit.serve b (otherTimes rs)) ∧
    (answers b rs).count (.ofService .otherapp) =
      served (ingressLocalRatelimit.serve b (otherTimes rs)) ∧
    bucketAfter b rs = ingressLocalRatelimit.after b (otherTimes rs) := by
  induction rs generalizing b with
  | nil => exact ⟨⟨nofun, nofun⟩, rfl, rfl⟩
  | cons r rs ih =>
      by_cases h : toBackend r = some .otherapp
      · obtain ⟨hlimited, hcount, hafter⟩ := ih (ingressLocalRatelimit.request b r.time).2
        rw [answers, bucketAfter, answer_other h, otherTimes_other h, Config.serve, Config.after]
        refine ⟨?_, ?_, hafter⟩
        · rw [List.mem_cons, List.mem_cons, hlimited]
          cases (ingressLocalRatelimit.request b r.time).1 <;> simp
        · rw [List.count_cons, hcount, served, served, List.count_cons]
          cases (ingressLocalRatelimit.request b r.time).1 <;> simp
      · obtain ⟨hbucket, hnot, hother⟩ := @answer_else b r h
        rw [answers, bucketAfter, hbucket, otherTimes_else h, List.mem_cons, List.count_cons,
          if_neg (mt beq_iff_eq.mp hother)]
        obtain ⟨hlimited, hcount, hafter⟩ := ih b
        exact ⟨(or_iff_right (Ne.symm hnot)).trans hlimited, hcount, hafter⟩

/-! ## 3. Runs -/

/-- The requests come in the order of their times. -/
def InOrder (rs : List Request) : Prop := (rs.map (·.time)).Pairwise (· ≤ ·)

theorem InOrder.other (h : InOrder rs) : (otherTimes rs).Pairwise (· ≤ ·) :=
  h.sublist (List.filter_sublist.map _)

/-- **No request is refused exactly when those to otherapp conform**, which are those of its path and
    below: no stretch of them has more than ten, and five for each fill in between. -/
theorem unlimited_iff (h : InOrder rs) :
    Answer.rateLimited ∉ answers ingressLocalRatelimit.start rs ↔
      Conforms ingressLocalRatelimit ((rs.filter fun r => OtherPath r.path).map (·.time)) := by
  rw [(answers_serve _ rs).1, ← otherTimes_eq, ← serve_all_iff h.other]
  constructor
  · intro hnot answer hanswer
    cases answer with
    | true => rfl
    | false => exact absurd hanswer hnot
  · exact fun hall hfalse => Bool.false_ne_true (hall false hfalse)

/-- Eleven requests at once. -/
def burst : List Request := List.replicate 11 ⟨0, "/other/".toList, 0⟩

theorem burst_inOrder : InOrder burst := by
  show (burst.map (·.time)).Pairwise (· ≤ ·)
  decide

/-- The eleventh is refused. -/
theorem unlimited_iff_burst : ¬ Conforms ingressLocalRatelimit
    ((burst.filter fun r => OtherPath r.path).map (·.time)) := by
  exact fun h => (unlimited_iff burst_inOrder).mpr h (by decide)

/-- What otherapp answers of a stretch of requests. -/
theorem served_between {pre seg : List Request} {first last : ℕ} (h : InOrder (pre ++ seg))
    (hbetween : ∀ r ∈ seg, first ≤ r.time ∧ r.time ≤ last) :
    ((answers ingressLocalRatelimit.start (pre ++ seg)).drop pre.length).count
      (.ofService .otherapp) ≤ 10 + 5 * (last / 60000 - first / 60000) := by
  have hdrop : (answers ingressLocalRatelimit.start (pre ++ seg)).drop pre.length =
      answers (ingressLocalRatelimit.after ingressLocalRatelimit.start (otherTimes pre)) seg := by
    have hlength := answers_length ingressLocalRatelimit.start pre
    rw [answers_append, (answers_serve _ pre).2.2]
    exact List.drop_left' hlength
  have hbounded : Bounded ingressLocalRatelimit
      (ingressLocalRatelimit.after ingressLocalRatelimit.start (otherTimes pre)) :=
    after_bounded start_bounded _
  have htimes : ∀ time ∈ otherTimes seg, first ≤ time ∧ time ≤ last := by
    intro time htime
    obtain ⟨r, hr, rfl⟩ := List.mem_map.mp htime
    exact hbetween r (List.mem_filter.mp hr).1
  have hsorted : (otherTimes seg).Pairwise (· ≤ ·) := by
    have hall := h.other
    rw [otherTimes_append] at hall
    exact (List.pairwise_append.mp hall).2.1
  rw [hdrop, (answers_serve _ seg).2.1]
  cases hseg : otherTimes seg with
  | nil => exact Nat.zero_le _
  | cons x xs =>
      rw [hseg] at htimes hsorted
      have hwindow := window_le hbounded hsorted fun y hy => (htimes y hy).2
      have hfirst : first / 60000 ≤ x / 60000 :=
        Nat.div_le_div_right (htimes x List.mem_cons_self).1
      have hconfig : ingressLocalRatelimit.maxTokens + ingressLocalRatelimit.tokensPerFill *
          (ingressLocalRatelimit.due last - ingressLocalRatelimit.due x) =
            10 + 5 * (last / 60000 - x / 60000) := rfl
      omega

/-- **Of any stretch of requests** otherapp answers ten at most, and five more for each fill in
    between, whatever came before; and every request to another is answered as without a limit. -/
theorem other_served_le {pre seg : List Request} {first last : ℕ} (h : InOrder (pre ++ seg))
    (hbetween : ∀ r ∈ seg, first ≤ r.time ∧ r.time ≤ last) :
    ((answers ingressLocalRatelimit.start (pre ++ seg)).drop pre.length).count
      (.ofService .otherapp) ≤ 10 + 5 * (last / 60000 - first / 60000) ∧
    ∀ (i : ℕ) (r : Request), (pre ++ seg)[i]? = some r → toBackend r ≠ some .otherapp →
      (answers ingressLocalRatelimit.start (pre ++ seg))[i]? = some (routed r) :=
  ⟨served_between h hbetween, fun _ _ hi hr => answers_routed _ _ hi hr⟩

/-- Twenty requests to myapp at once, and eleven to otherapp. -/
def rush : List Request := List.replicate 20 ⟨0, "/".toList, 0⟩ ++ burst

theorem rush_inOrder : InOrder ([] ++ rush) := by
  show (rush.map (·.time)).Pairwise (· ≤ ·)
  decide

/-- Ten of the eleven are answered at most, and the twentieth to myapp is answered by it. -/
theorem other_served_le_rush :
    ((answers ingressLocalRatelimit.start ([] ++ rush)).drop 0).count (.ofService .otherapp) ≤ 10 ∧
    (answers ingressLocalRatelimit.start ([] ++ rush))[19]? = some (.ofService .myappV1) := by
  have hbetween : ∀ r ∈ rush, 0 ≤ r.time ∧ r.time ≤ 0 := by decide
  have hrush := other_served_le rush_inOrder hbetween
  exact ⟨hrush.1, hrush.2 19 ⟨0, "/".toList, 0⟩ rfl (by decide)⟩

end Requests

end Istio
