/-
  File:      BlogDemo/Operator/Liveness.lean
  Subject:   THE OPERATOR GETS ITS WORK DONE: in every fair behaviour in which nobody else writes a
             custom resource or its child any more and no call for them fails, whatever was under way
             before and whatever goes on with the others.

  From one time to a later one: the cache has the specification; runs that go by an older one are over;
  the child is written for the last time; its event is handed on; runs that have read an older child are
  over; the status is written for the last time; its event is handed on; a run finds nothing to do.

  * `Fair` -- events are handed on, requests are taken up and runs end, in the end;
  * **`eventually_settled`** -- the child becomes what the specification asks for, the status becomes
    the child's, and both stay so;
  * `fair_of_idle` -- a behaviour that comes to rest is fair.
-/
import BlogDemo.Lib.Kube.Delivery
import BlogDemo.Operator.Resource
import Mathlib.Order.Filter.AtTopBot.Finite

namespace Operator

open Atomic Kube Filter

variable {latest : String → Bool} {my my' : MyCRD} {d : Deployment} {k : Key}

/-! ## 1. What `mutate` looks at -/

/-- The custom resource without its status. -/
def core (my : MyCRD) : MyCRD := { my with status := {} }

theorem core_key (h : core my = core my') : my.key = my'.key := by
  show (core my).key = (core my').key
  rw [h]

theorem eq_of_core (h : core my = core my') : my = { my' with status := my.status } := by
  have hfields := MyCRD.mk.injEq .. ▸ h
  obtain ⟨hname, hns, huid, hdel, hspec, _⟩ := hfields
  cases my
  cases my'
  simp_all

/-- `mutate` does not look at the status. -/
theorem wanted_core (h : core my = core my') (d : Deployment) :
    wanted latest my d = wanted latest my' d := by
  rw [eq_of_core h]
  rfl

/-- The Deployment `mutate` is applied to, by what is stored. -/
def baseOf (my : MyCRD) (o : Option Deployment) : Deployment := o.getD (frame my)

/-- Nobody else controls the child, and the server accepts what `mutate` makes of it. -/
structure Admits (my : MyCRD) (o : Option Deployment) : Prop where
  own : foreign my (baseOf my o) = false
  valid : (mutated my (baseOf my o)).valid = true

theorem Admits.status {o : Option Deployment} (h : Admits my o) (status : MyCRDStatus) :
    Admits { my with status := status } o :=
  ⟨h.own, h.valid⟩

/-- A run of any version of the custom resource leaves it so. -/
theorem Admits.written (hk : my'.key = my.key) {o : Option Deployment} (h : Admits my o) :
    Admits my (some (wanted latest my' (baseOf my' o))) := by
  have hname : my'.name = my.name := congrArg Key.name hk
  have hframe : frame my' = frame my := by
    have hns : my'.ns = my.ns := congrArg Key.ns hk
    rw [frame, frame, MyCRD.deployName, MyCRD.deployName, hname, hns]
  have hbase : baseOf my' o = baseOf my o := by rw [baseOf, baseOf, hframe]
  rw [hbase]
  constructor
  · have hf : foreign my' (baseOf my o) = false := (foreign_congr hk).trans h.own
    rw [foreign_congr hk.symm]
    exact mutated_not_foreign hf
  · have hselector : (mutated my (wanted latest my' (baseOf my o))).spec.selector =
        (mutated my (baseOf my o)).spec.selector := by
      simp only [mutated, mutateSpec, Deployment.setDefaults, Option.getD_some, hname]
    have hsame : (mutated my (wanted latest my' (baseOf my o))).valid =
        (mutated my (baseOf my o)).valid := by
      unfold Deployment.valid
      rw [hselector]
      rfl
    exact hsame.trans h.valid

/-! ## 2. What a step writes -/

/-- The version of the custom resource the run goes by. -/
def Pos.goesBy : Pos → Option (Version MyCRD)
  | .begin => none
  | .child my => some my
  | .create my => some my
  | .update my _ => some my
  | .fresh my => some my
  | .setStatus my _ => some my
  | .finished _ => none

namespace View

/-- What the server has. -/
def storedChild (v : View) : Option Deployment := v.child.current.map (·.obj)

variable {v v' : View}

/-- **What a step does to the custom resource**: at most its status is written, by a run. -/
theorem Step.mycrd (h : View.Step latest k v v') : v'.mycrd = v.mycrd ∨ v'.mycrd = v.mycrd.tell ∨
    ∃ my cur available rev, v.pos = some (.setStatus my available) ∧ v.mycrd.current = some cur ∧
      cur.obj.status ≠ ⟨available⟩ ∧
      v'.mycrd = v.mycrd.push (some ⟨rev, { cur.obj with status := ⟨available⟩ }⟩) := by
  cases h with
  | queue => exact Or.inl rfl
  | tellMyCRD hp => exact Or.inr (Or.inl rfl)
  | tellChild => exact Or.inl rfl
  | start => exact Or.inl rfl
  | move p p' m c hp hm =>
      cases hm with
      | reported my cur available rev h hne =>
          exact Or.inr (Or.inr ⟨my, cur, available, rev, hp, h, hne, rfl⟩)
      | _ => exact Or.inl rfl
  | done => exact Or.inl rfl
  | retry => exact Or.inl rfl

/-- **What a step does to the child**: at most a run writes what it wants, when that is not there. -/
theorem Step.child (h : View.Step latest k v v') : v'.child = v.child ∨ v'.child = v.child.tell ∨
    ∃ p my rev, v.pos = some p ∧ p.goesBy = some my ∧ my.obj.key = k ∧
      foreign my.obj (baseOf my.obj v.storedChild) = false ∧
      v.storedChild ≠ some (wanted latest my.obj (baseOf my.obj v.storedChild)) ∧
      v'.child = v.child.push (some ⟨rev, wanted latest my.obj (baseOf my.obj v.storedChild)⟩) := by
  cases h with
  | queue => exact Or.inl rfl
  | tellMyCRD => exact Or.inl rfl
  | tellChild queued hp hq => exact Or.inr (Or.inl rfl)
  | start => exact Or.inl rfl
  | move p p' m c hp hm =>
      cases hm with
      | created my rev hk h =>
          have hstored : v.storedChild = none := by rw [storedChild, h, Option.map_none]
          have hbase : baseOf my.obj v.storedChild = frame my.obj := by rw [hstored]; rfl
          refine Or.inr (Or.inr ⟨_, my, rev, hp, rfl, hk, ?_, ?_, ?_⟩)
          · rw [hbase]
            exact frame_not_foreign
          · rw [hstored]
            exact (Option.some_ne_none _).symm
          · rw [hbase]
      | updated my d rev hk hf h hne =>
          have hstored : v.storedChild = some d.obj := by rw [storedChild, h, Option.map_some]
          have hbase : baseOf my.obj v.storedChild = d.obj := by rw [hstored]; rfl
          refine Or.inr (Or.inr ⟨_, my, rev, hp, rfl, hk, ?_, ?_, ?_⟩)
          · rw [hbase, hf]
          · rw [hbase, hstored]
            exact fun h => hne (Option.some.inj h).symm
          · rw [hbase]
      | _ => exact Or.inl rfl
  | done => exact Or.inl rfl
  | retry => exact Or.inl rfl

/-- **What a step does to the run**: it goes on, begins or ends. -/
theorem Step.pos (h : View.Step latest k v v') : v'.pos = v.pos ∨
    (v.queued = true ∧ v.pos = none ∧ v'.pos = some .begin) ∨
    (∃ p p', v.pos = some p ∧ v'.pos = some p' ∧
      Move latest k v.mycrd v.child p p' v'.mycrd v'.child) ∨
    ∃ r, v.pos = some (.finished r) ∧ v'.pos = none := by
  cases h with
  | queue => exact Or.inl rfl
  | tellMyCRD => exact Or.inl rfl
  | tellChild => exact Or.inl rfl
  | start hq hp => exact Or.inr (Or.inl ⟨hq, hp, rfl⟩)
  | move p p' m c hp hm => exact Or.inr (Or.inr (Or.inl ⟨p, p', hp, rfl, hm⟩))
  | done hp => exact Or.inr (Or.inr (Or.inr ⟨_, hp, rfl⟩))
  | retry e hp => exact Or.inr (Or.inr (Or.inr ⟨_, hp, rfl⟩))

/-- **Fairness**: events are handed on, a request that is queued is taken up, and runs end. -/
structure Fair (τ : Nat → View) : Prop where
  mycrd : Feed.Told fun n => (τ n).mycrd
  child : Feed.Told fun n => (τ n).child
  started : ∀ n, (τ n).queued = true → ∃ m, n ≤ m ∧ (τ m).pos = none ∧ (τ (m + 1)).pos = some .begin
  ended : ∀ n, ∃ m, n ≤ m ∧ (τ m).pos = none

end View

/-! ## 3. What holds from some time on -/

section Phases

variable {τ : Nat → View}

/-- It is the custom resource `my`, with whatever status. -/
def Is (my : MyCRD) (o : Option (Version MyCRD)) : Prop := ∃ v, o = some v ∧ core v.obj = core my

/-- Nobody writes anything but the status. -/
theorem always_is (hrun : ∀ n, View.Step latest k (τ n) (τ (n + 1)))
    (hmy : Is my (τ 0).mycrd.current) (n : Nat) : Is my (τ n).mycrd.current := by
  induction n with
  | zero => exact hmy
  | succ n ih =>
      rcases (hrun n).mycrd with heq | heq | ⟨_, cur, available, rev, _, hcur, _, heq⟩
      · rw [heq]
        exact ih
      · rw [heq, Feed.tell_current]
        exact ih
      · obtain ⟨v, hv, hcore⟩ := ih
        obtain rfl : v = cur := Option.some.inj (hv.symm.trans hcur)
        rw [heq, Feed.push_current]
        exact ⟨_, rfl, hcore⟩

/-- The child stays acceptable. -/
theorem always_admits (hrun : ∀ n, View.Step latest k (τ n) (τ (n + 1))) (hk : my.key = k)
    (ha : Admits my (τ 0).storedChild) (n : Nat) : Admits my (τ n).storedChild := by
  induction n with
  | zero => exact ha
  | succ n ih =>
      rcases (hrun n).child with heq | heq | ⟨_, my', rev, _, _, hk', _, _, heq⟩
      · rw [View.storedChild, heq]
        exact ih
      · rw [View.storedChild, heq, Feed.tell_current]
        exact ih
      · rw [View.storedChild, heq, Feed.push_current]
        exact ih.written (hk'.trans hk.symm)

/-- **What holds of a run from its beginning**, from some time on. -/
theorem pos_stays (hrun : ∀ n, View.Step latest k (τ n) (τ (n + 1))) (hfair : View.Fair τ)
    {I : Nat → Prop} {P : Pos → Prop} (hI : ∀ᶠ n in atTop, I n) (hbegin : P .begin)
    (hmove : ∀ n p p', I n → P p →
      Move latest k (τ n).mycrd (τ n).child p p' (τ (n + 1)).mycrd (τ (n + 1)).child → P p') :
    ∀ᶠ n in atTop, ∀ p, (τ n).pos = some p → P p := by
  refine Behaviour.stays hI (frequently_atTop.mpr fun n => ?_) fun n hn hP p hp => ?_
  · obtain ⟨m, hm, hnone⟩ := hfair.ended n
    refine ⟨m, hm, fun p hp => ?_⟩
    cases hnone.symm.trans hp
  · rcases (hrun n).pos with heq | ⟨_, _, heq⟩ | ⟨p₀, p₁, hp₀, hp₁, hm⟩ | ⟨r, _, heq⟩
    · exact hP p (heq.symm.trans hp)
    · cases heq.symm.trans hp
      exact hbegin
    · cases hp₁.symm.trans hp
      exact hmove n p₀ p hn (hP p₀ hp₀) hm
    · cases heq.symm.trans hp

/-- **The cache has the specification**, from some time on. -/
theorem cached_is (hrun : ∀ n, View.Step latest k (τ n) (τ (n + 1))) (hfair : View.Fair τ)
    (hmy : Is my (τ 0).mycrd.current) :
    ∀ᶠ n in atTop, ∀ o ∈ (τ n).mycrd.states, Is my o := by
  have his := always_is hrun hmy
  refine Feed.only_good (f := fun n => (τ n).mycrd) (Eventually.of_forall fun n => ?_)
    (Eventually.of_forall his) hfair.mycrd
  rcases (hrun n).mycrd with heq | heq | ⟨_, cur, available, rev, _, hcur, _, heq⟩
  · exact Or.inl heq
  · exact Or.inr (Or.inl heq)
  · obtain ⟨v, hv, hcore⟩ := his n
    obtain rfl : v = cur := Option.some.inj (hv.symm.trans hcur)
    refine Or.inr (Or.inr ⟨_, ?_, heq⟩)
    exact ⟨_, rfl, hcore⟩

theorem Move.goesBy {m m' : Feed MyCRD} {c c' : Feed Deployment} {p p' : Pos}
    (h : Move latest k m c p p' m' c') : p'.goesBy = none ∨ p'.goesBy = p.goesBy ∨
      ∃ v, m.seen = some v ∧ p'.goesBy = some v := by
  cases h with
  | read my h => exact Or.inr (Or.inr ⟨my, h, rfl⟩)
  | absent => exact Or.inr (Or.inl rfl)
  | found => exact Or.inr (Or.inl rfl)
  | created => exact Or.inr (Or.inl rfl)
  | updated => exact Or.inr (Or.inl rfl)
  | unchanged => exact Or.inr (Or.inl rfl)
  | differs => exact Or.inr (Or.inl rfl)
  | _ => exact Or.inl rfl

/-- **No run goes by an older specification**, from some time on. -/
theorem goesBy_is (hrun : ∀ n, View.Step latest k (τ n) (τ (n + 1))) (hfair : View.Fair τ)
    (hmy : Is my (τ 0).mycrd.current) : ∀ᶠ n in atTop, ∀ p, (τ n).pos = some p →
      ∀ my', p.goesBy = some my' → core my'.obj = core my := by
  refine pos_stays (P := fun p => ∀ my', p.goesBy = some my' → core my'.obj = core my) hrun hfair
    (cached_is hrun hfair hmy) (fun my' h => by cases h) fun n p p' hn hP hm my' hmy' => ?_
  rcases hm.goesBy with hnone | heq | ⟨v, hv, heq⟩
  · cases hnone.symm.trans hmy'
  · exact hP my' (heq.symm.trans hmy')
  · obtain rfl : v = my' := Option.some.inj (heq.symm.trans hmy')
    obtain ⟨v', hv', hcore⟩ := hn _ (List.mem_cons_self (a := (τ n).mycrd.seen))
    obtain rfl : v = v' := Option.some.inj (hv.symm.trans hv')
    exact hcore

/-- What a step writes is what the specification asks for, from some time on. -/
theorem child_step (hrun : ∀ n, View.Step latest k (τ n) (τ (n + 1))) (hfair : View.Fair τ)
    (hmy : Is my (τ 0).mycrd.current) : ∀ᶠ n in atTop, (τ (n + 1)).child = (τ n).child ∨
      (τ (n + 1)).child = (τ n).child.tell ∨ ∃ rev d, d = wanted latest my d ∧
        (τ n).storedChild ≠ some d ∧
        (∀ d', (τ n).storedChild = some d' → d = wanted latest my d') ∧
        (τ (n + 1)).child = (τ n).child.push (some ⟨rev, d⟩) := by
  refine (goesBy_is hrun hfair hmy).mono fun n hn => ?_
  rcases (hrun n).child with heq | heq | ⟨p, my', rev, hp, hgoes, _, _, hne, heq⟩
  · exact Or.inl heq
  · exact Or.inr (Or.inl heq)
  · have hcore := hn p hp my' hgoes
    rw [wanted_core hcore] at hne heq
    refine Or.inr (Or.inr ⟨rev, _, mutated_again.symm, hne, fun d' hd' => ?_, heq⟩)
    rw [hd']
    rfl

/-- **The child is written for the last time.** -/
theorem child_rests (hrun : ∀ n, View.Step latest k (τ n) (τ (n + 1))) (hfair : View.Fair τ)
    (hmy : Is my (τ 0).mycrd.current) : ∃ c, ∀ᶠ n in atTop, (τ n).child.current = c := by
  have hstep := child_step hrun hfair hmy
  refine Behaviour.comes_to_rest (x := fun n => (τ n).child.current)
    (G := fun o => ∃ v, o = some v ∧ v.obj = wanted latest my v.obj) (hstep.mono ?_)
    (hstep.mono ?_)
  · intro n hn
    rcases hn with heq | heq | ⟨rev, d, hd, _, _, heq⟩
    · exact Or.inl (congrArg Feed.current heq)
    · exact Or.inl (by rw [heq, Feed.tell_current])
    · refine Or.inr ⟨⟨rev, d⟩, ?_, hd⟩
      rw [heq, Feed.push_current]
  · intro n hn hgood
    obtain ⟨v, hv, hwanted⟩ := hgood
    rcases hn with heq | heq | ⟨rev, d, _, hne, hd, _⟩
    · exact congrArg Feed.current heq
    · rw [heq, Feed.tell_current]
    · have hstored : (τ n).storedChild = some v.obj := by rw [View.storedChild, hv, Option.map_some]
      rw [hd v.obj hstored, ← hwanted] at hne
      exact absurd hstored hne

/-- **The cache has the child.** -/
theorem child_synced (hrun : ∀ n, View.Step latest k (τ n) (τ (n + 1))) (hfair : View.Fair τ)
    (hmy : Is my (τ 0).mycrd.current) : ∃ c, ∀ᶠ n in atTop, (τ n).child = ⟨c, []⟩ := by
  obtain ⟨c, hc⟩ := child_rests hrun hfair hmy
  have hpending := Feed.caught_up (f := fun n => (τ n).child) ?_ hfair.child
  · refine ⟨c, (hc.and hpending).mono fun n hn => ?_⟩
    obtain ⟨hcurrent, hp⟩ := hn
    rw [Feed.current, hp, List.getLastD_nil] at hcurrent
    exact congrArg₂ Feed.mk hcurrent hp
  · have hboth := (eventually_forall_ge_atTop.mpr hc).and (child_step hrun hfair hmy)
    refine hboth.mono fun n hn => ?_
    obtain ⟨hsame, heq | heq | ⟨rev, d, _, hne, _, heq⟩⟩ := hn
    · exact Or.inl heq
    · exact Or.inr heq
    · have hcurrent : (τ n).child.current = some ⟨rev, d⟩ := by
        rw [hsame n (Nat.le_refl n), ← hsame (n + 1) (Nat.le_succ n), heq, Feed.push_current]
      exact absurd (congrArg (Option.map Version.obj) hcurrent) hne

/-- The status that is to be written is the one the cache has of the child. -/
theorem Move.read_status {m m' : Feed MyCRD} {c c' : Feed Deployment} {p : Pos}
    {my : Version MyCRD} {available : Int32}
    (h : Move latest k m c p (.setStatus my available) m' c') :
    ∃ d, c.seen = some d ∧ available = d.obj.status.availableReplicas := by
  cases h with
  | differs my d h => exact ⟨d, h, rfl⟩

/-- **The status is written for the last time**: when the cache has the child. -/
theorem mycrd_rests (hrun : ∀ n, View.Step latest k (τ n) (τ (n + 1))) (hfair : View.Fair τ)
    {c : Option (Version Deployment)} (hc : ∀ᶠ n in atTop, (τ n).child = ⟨c, []⟩) :
    ∃ m, ∀ᶠ n in atTop, (τ n).mycrd.current = m := by
  -- from some time on every run that writes the status has read the child
  have hread := pos_stays (P := fun p => ∀ my available, p = .setStatus my available →
      ∃ d, c = some d ∧ available = d.obj.status.availableReplicas) hrun hfair hc
    (fun my available h => by cases h) fun n p p' hn _ hm my available h => by
      obtain ⟨d, hd, ha⟩ := (h ▸ hm).read_status
      rw [hn] at hd
      exact ⟨d, hd, ha⟩
  have hstep : ∀ᶠ n in atTop, (τ (n + 1)).mycrd = (τ n).mycrd ∨
      (τ (n + 1)).mycrd = (τ n).mycrd.tell ∨ ∃ cur d rev, (τ n).mycrd.current = some cur ∧
        c = some d ∧ cur.obj.status ≠ ⟨d.obj.status.availableReplicas⟩ ∧
        (τ (n + 1)).mycrd = (τ n).mycrd.push
          (some ⟨rev, { cur.obj with status := ⟨d.obj.status.availableReplicas⟩ }⟩) := by
    refine hread.mono fun n hn => ?_
    rcases (hrun n).mycrd with heq | heq | ⟨my, cur, available, rev, hpos, hcur, hne, heq⟩
    · exact Or.inl heq
    · exact Or.inr (Or.inl heq)
    · obtain ⟨d, hd, rfl⟩ := hn _ hpos my available rfl
      exact Or.inr (Or.inr ⟨cur, d, rev, hcur, hd, hne, heq⟩)
  refine Behaviour.comes_to_rest (x := fun n => (τ n).mycrd.current)
    (G := fun o => ∃ cur d, o = some cur ∧ c = some d ∧
      cur.obj.status = ⟨d.obj.status.availableReplicas⟩) (hstep.mono ?_) (hstep.mono ?_)
  · intro n hn
    rcases hn with heq | heq | ⟨cur, d, rev, _, hd, _, heq⟩
    · exact Or.inl (congrArg Feed.current heq)
    · exact Or.inl (by rw [heq, Feed.tell_current])
    · have hcurrent := congrArg Feed.current heq
      rw [Feed.push_current] at hcurrent
      exact Or.inr ⟨_, d, hcurrent, hd, rfl⟩
  · intro n hn hgood
    obtain ⟨cur, d, hcur, hd, hstatus⟩ := hgood
    rcases hn with heq | heq | ⟨cur', d', rev, hcur', hd', hne, _⟩
    · exact congrArg Feed.current heq
    · rw [heq, Feed.tell_current]
    · obtain rfl : cur = cur' := Option.some.inj (hcur.symm.trans hcur')
      obtain rfl : d = d' := Option.some.inj (hd.symm.trans hd')
      exact absurd hstatus hne

/-- The objects that are reached, which the caches have. -/
def Synced (m : Version MyCRD) (c : Option (Version Deployment)) (v : View) : Prop :=
  v.mycrd = ⟨some m, []⟩ ∧ v.child = ⟨c, []⟩

/-- **The caches have both objects, and nobody writes them any more.** -/
theorem synced (hrun : ∀ n, View.Step latest k (τ n) (τ (n + 1))) (hfair : View.Fair τ)
    (hmy : Is my (τ 0).mycrd.current) :
    ∃ m c, core m.obj = core my ∧ ∀ᶠ n in atTop, Synced m c (τ n) := by
  obtain ⟨c, hc⟩ := child_synced hrun hfair hmy
  obtain ⟨o, ho⟩ := mycrd_rests hrun hfair hc
  have hpending := Feed.caught_up (f := fun n => (τ n).mycrd) ?_ hfair.mycrd
  · obtain ⟨n₀, hn₀⟩ := ho.exists
    obtain ⟨m, hm, hcore⟩ := always_is hrun hmy n₀
    obtain rfl : o = some m := hn₀.symm.trans hm
    refine ⟨m, c, hcore, (ho.and (hpending.and hc)).mono fun n hn => ?_⟩
    obtain ⟨hcurrent, hp, hchild⟩ := hn
    rw [Feed.current, hp, List.getLastD_nil] at hcurrent
    exact ⟨congrArg₂ Feed.mk hcurrent hp, hchild⟩
  · refine (eventually_forall_ge_atTop.mpr ho).mono fun n hsame => ?_
    rcases (hrun n).mycrd with heq | heq | ⟨_, cur, available, rev, _, hcur, hne, heq⟩
    · exact Or.inl heq
    · exact Or.inr heq
    · have hcurrent : (τ n).mycrd.current =
          some ⟨rev, { cur.obj with status := ⟨available⟩ }⟩ := by
        rw [hsame n (Nat.le_refl n), ← hsame (n + 1) (Nat.le_succ n), heq, Feed.push_current]
      rw [hcur, Option.some.injEq] at hcurrent
      exact absurd (congrArg (fun v => v.obj.status) hcurrent) hne

/-! ## 4. A run that has nothing to do -/

/-- What a run knows once it has read both objects. -/
def Knows (latest : String → Bool) (m : Version MyCRD) (c : Option (Version Deployment)) :
    Pos → Prop
  | .begin => True
  | .child my => my = m
  | .create my => my = m ∧ c = none
  | .update my d => my = m ∧ c = some d
  | .fresh my => my = m ∧ ∃ d, c = some d ∧ wanted latest m.obj d.obj = d.obj
  | .setStatus my available => my = m ∧ ∃ d, c = some d ∧ wanted latest m.obj d.obj = d.obj ∧
      available = d.obj.status.availableReplicas
  | .finished _ => ∃ d, c = some d ∧ wanted latest m.obj d.obj = d.obj ∧
      m.obj.status.availableReplicas = d.obj.status.availableReplicas

theorem push_ne {V : Type} {f : Feed V} {o : Option (Version V)} {s : Option (Version V)}
    (h : f.push o = ⟨s, []⟩) : False := by
  have hp := congrArg Feed.pending h
  exact absurd hp (by simp [Feed.push])

/-- **A run that reads both objects as they are is refused nothing, and changes nothing.** -/
theorem knows_move {m : Version MyCRD} {c : Option (Version Deployment)} {p p' : Pos}
    {m' : Feed MyCRD} {c' : Feed Deployment} (ha : Admits m.obj (c.map (·.obj)))
    (hp : Knows latest m c p) (hm : Move latest k ⟨some m, []⟩ ⟨c, []⟩ p p' m' c')
    (hm' : m' = ⟨some m, []⟩) (hc' : c' = ⟨c, []⟩) : Knows latest m c p' := by
  obtain ⟨hown, hvalid⟩ := ha
  cases hm with
  | gone h => cases h
  | read my h => exact (Option.some.inj h).symm
  | absent my h => exact ⟨hp, h⟩
  | refused my d e h hf =>
      obtain rfl : my = m := hp
      obtain rfl : c = some d := h
      cases hf.symm.trans hown
  | found my d h => exact ⟨hp, h⟩
  | created my rev hk h => exact (push_ne hc').elim
  | notCreated my e h =>
      obtain ⟨rfl, rfl⟩ := hp
      rcases h with h | h
      · exact absurd rfl h
      · cases h.symm.trans hvalid
  | updated my d rev hk hf h hne => exact (push_ne hc').elim
  | unchanged my d h hsame =>
      obtain ⟨rfl, hd⟩ := hp
      exact ⟨rfl, d, hd, hsame⟩
  | notUpdated my d e h =>
      obtain ⟨rfl, rfl⟩ := hp
      rcases h with h | h
      · exact absurd rfl h
      · cases h.symm.trans hvalid
  | lost my h =>
      obtain ⟨_, d, hd, _⟩ := hp
      cases hd.symm.trans h
  | same my d h hsame =>
      obtain ⟨rfl, d', hd', hwanted⟩ := hp
      obtain rfl : d' = d := Option.some.inj (hd'.symm.trans h)
      exact ⟨d', hd', hwanted, hsame⟩
  | differs my d h =>
      obtain ⟨rfl, d', hd', hwanted⟩ := hp
      obtain rfl : d' = d := Option.some.inj (hd'.symm.trans h)
      exact ⟨rfl, d', hd', hwanted, rfl⟩
  | reported my cur available rev h hne => exact (push_ne hm').elim
  | repeated my cur available h hsame =>
      obtain ⟨rfl, d, hd, hwanted, rfl⟩ := hp
      obtain rfl : cur = my := (Option.some.inj h).symm
      exact ⟨d, hd, hwanted, congrArg MyCRDStatus.availableReplicas hsame⟩
  | notReported my available e h =>
      obtain ⟨rfl, _⟩ := hp
      exact absurd rfl h

/-- **Once the caches have both objects** a run finds nothing to do, or there is none any more. -/
theorem nothing_to_do (hrun : ∀ n, View.Step latest k (τ n) (τ (n + 1))) (hfair : View.Fair τ)
    {m : Version MyCRD} {c : Option (Version Deployment)}
    (hsynced : ∀ᶠ n in atTop, Synced m c (τ n)) (ha : Admits m.obj (c.map (·.obj))) :
    (∃ d, c = some d ∧ wanted latest m.obj d.obj = d.obj ∧
        m.obj.status.availableReplicas = d.obj.status.availableReplicas) ∨
      ∀ᶠ n in atTop, (τ n).pos = none ∧ (τ n).queued = false := by
  have hknows := pos_stays (P := Knows latest m c) hrun hfair (eventually_forall_ge_atTop.mpr hsynced)
    trivial fun n p p' hn hp hm => by
      obtain ⟨hm₀, hc₀⟩ := hn n (Nat.le_refl n)
      obtain ⟨hm₁, hc₁⟩ := hn (n + 1) (Nat.le_succ n)
      rw [hm₀, hc₀] at hm
      exact knows_move ha hp hm hm₁ hc₁
  obtain ⟨n₀, hn₀⟩ := eventually_atTop.mp hknows
  by_cases hbusy : ∃ n, n₀ ≤ n ∧ (τ n).pos ≠ none
  · -- the run ends, and then it knows
    obtain ⟨n, hn, hne⟩ := hbusy
    obtain ⟨n', hn', hnone⟩ := hfair.ended n
    left
    induction n', hn' using Nat.le_induction with
    | base => exact absurd hnone hne
    | succ n' hn' ih =>
        by_cases hnow : (τ n').pos = none
        · exact ih hnow
        · rcases (hrun n').pos with heq | ⟨_, _, heq⟩ | ⟨_, _, _, heq, _⟩ | ⟨r, hr, _⟩
          · exact absurd (heq.symm.trans hnone) hnow
          · cases hnone.symm.trans heq
          · cases hnone.symm.trans heq
          · exact hn₀ n' (hn.trans hn') _ hr
  · have hidle : ∀ n, n₀ ≤ n → (τ n).pos = none := fun n hn =>
      not_not.mp fun hne => hbusy ⟨n, hn, hne⟩
    refine Or.inr (eventually_atTop.mpr ⟨n₀, fun n hn => ⟨hidle n hn, ?_⟩⟩)
    by_contra hq
    rw [Bool.not_eq_false] at hq
    obtain ⟨n', hn', _, hbegin⟩ := hfair.started n hq
    have hnone := hidle (n' + 1) (by omega)
    cases hnone.symm.trans hbegin

end Phases

/-! ## 5. The operator -/

/-- **Fairness for `k`**: the events of the two objects are handed on, the request is taken up when
    it is queued, and its runs end. -/
structure Fair (k : Key) (σ : Nat → Loop latest) : Prop where
  mycrd : Feed.Told fun n => (σ n).store.mycrds.feed k
  child : Feed.Told fun n => (σ n).store.deployments.feed (childKey k)
  started : ∀ n, k ∈ (σ n).queue → ∃ m, n ≤ m ∧ (σ m).worker = none ∧
    ∃ wk, (σ (m + 1)).worker = some wk ∧ wk.req = k
  ended : ∀ n, ∃ m, n ≤ m ∧ ∀ wk, (σ m).worker = some wk → wk.req ≠ k

/-- A fair behaviour has fair views. -/
theorem Fair.view {σ : Nat → Loop latest} (h : Fair k σ) {τ : Nat → View}
    (hshows : ∀ n, Shows k (σ n) (τ n)) (hrun : ∀ n, View.Step latest k (τ n) (τ (n + 1))) :
    View.Fair τ where
  mycrd := by
    have heq : (fun n => (τ n).mycrd) = fun n => (σ n).store.mycrds.feed k :=
      funext fun n => (hshows n).mycrd
    rw [heq]
    exact h.mycrd
  child := by
    have heq : (fun n => (τ n).child) = fun n => (σ n).store.deployments.feed (childKey k) :=
      funext fun n => (hshows n).child
    rw [heq]
    exact h.child
  started n hq := by
    obtain ⟨m, hm, hworker, wk, hwk, hreq⟩ := h.started n ((hshows n).queued.mp hq)
    have hnone : (τ m).pos = none := (hshows m).idle fun _ hw => by cases hworker.symm.trans hw
    obtain ⟨p, hp, _⟩ := (hshows (m + 1)).busy wk hwk hreq
    refine ⟨m, hm, hnone, ?_⟩
    rcases (hrun m).pos with heq | ⟨_, _, hbegin⟩ | ⟨_, _, hsome, _⟩ | ⟨_, hsome, _⟩
    · cases (heq.trans hnone).symm.trans hp
    · exact hbegin
    · cases hnone.symm.trans hsome
    · cases hnone.symm.trans hsome
  ended n := by
    obtain ⟨m, hm, hidle⟩ := h.ended n
    exact ⟨m, hm, (hshows m).idle hidle⟩

section Calm

variable {σ : Nat → Loop latest}

theorem calm_reached (hreach : ControlLoop.Reachable (operator latest) (σ 0))
    (hcalm : ∀ n, σ (n + 1) = σ n ∨ Calm k (σ n) (σ (n + 1))) (n : Nat) :
    ControlLoop.Reachable (operator latest) (σ n) := by
  induction n with
  | zero => exact hreach
  | succ n ih =>
      rcases hcalm n with heq | hs
      · rw [heq]
        exact ih
      · exact ih.step hs.step

/-- A calm behaviour has a run of the automaton at its side. -/
theorem calm_views (hreach : ControlLoop.Reachable (operator latest) (σ 0))
    (hcalm : ∀ n, σ (n + 1) = σ n ∨ Calm k (σ n) (σ (n + 1))) :
    ∃ τ : Nat → View, (∀ n, Shows k (σ n) (τ n)) ∧ ∀ n, View.Step latest k (τ n) (τ (n + 1)) := by
  obtain ⟨v₀, hv₀⟩ := exists_view (reachable_at hreach) k
  refine Behaviour.simulated hv₀ fun n v hv => ?_
  rcases hcalm n with heq | hs
  · rw [heq]
    exact ⟨v, hv, .queue v v.queued id⟩
  · exact calm_view (reachable_at (calm_reached hreach hcalm n)) hv hs

end Calm

/-- **The operator gets its work done.** Whatever has happened before: if from now on nobody else
    writes the custom resource or its child and no call for them fails, then in every fair behaviour
    the child becomes what the specification asks for and the status the child's, and both stay. -/
theorem eventually_settled {σ : Nat → Loop latest}
    (hreach : ControlLoop.Reachable (operator latest) (σ 0))
    (hcalm : ∀ n, σ (n + 1) = σ n ∨ Calm my.key (σ n) (σ (n + 1))) (hfair : Fair my.key σ)
    (hmy : (σ 0).store.cluster.mycrds.get my.key = some my)
    (hf : foreign my (base my (σ 0).store.cluster) = false)
    (ha : Accepted my (σ 0).store.cluster) :
    ∃ child, Desired my child ∧ ∀ᶠ n in atTop,
      (σ n).store.cluster.deployments.get my.deployKey = some child ∧
      (σ n).store.cluster.mycrds.get my.key =
        some { my with status := ⟨child.status.availableReplicas⟩ } ∧
      reconciled my.key (σ n).store.cluster = (σ n).store.cluster := by
  have hreached := calm_reached hreach hcalm
  obtain ⟨τ, hshows, hrun⟩ := calm_views hreach hcalm
  have hfairview := hfair.view hshows hrun
  have hstored : ∀ n, (τ n).storedChild = (σ n).store.cluster.deployments.get my.deployKey := by
    intro n
    rw [View.storedChild, (hshows n).child]
    rfl
  have his : Is my (τ 0).mycrd.current := by
    obtain ⟨v, hv, hobj⟩ := stored_current hmy
    refine ⟨v, ?_, congrArg core hobj⟩
    rw [(hshows 0).mycrd]
    exact hv
  have hadmits : Admits my (τ 0).storedChild := by
    rw [hstored]
    exact ⟨hf, ha⟩
  obtain ⟨m, c, hcore, hsynced⟩ := synced hrun hfairview his
  have hm : m.obj = { my with status := m.obj.status } := eq_of_core hcore
  have hget : ∀ n, Synced m c (τ n) → (σ n).store.cluster.mycrds.get my.key = some m.obj ∧
      (σ n).store.cluster.deployments.get my.deployKey = c.map (·.obj) := by
    intro n hn
    obtain ⟨hmycrd, hchild⟩ := hn
    exact ⟨stored_mycrd (congrArg Feed.current ((hshows n).mycrd.symm.trans hmycrd)),
      stored_deployment (congrArg Feed.current ((hshows n).child.symm.trans hchild))⟩
  obtain ⟨n₀, hn₀⟩ := hsynced.exists
  have hadmits' : Admits m.obj (c.map (·.obj)) := by
    rw [hm, ← (hget n₀ hn₀).2, ← hstored n₀]
    exact (always_admits hrun rfl hadmits n₀).status _
  -- a run has found nothing to do, or there is none any more
  have hfixed : ∃ d, c = some d ∧ wanted latest m.obj d.obj = d.obj ∧
      m.obj.status.availableReplicas = d.obj.status.availableReplicas := by
    rcases nothing_to_do hrun hfairview hsynced hadmits' with hfixed | hquiet
    · exact hfixed
    · obtain ⟨n, ⟨hpos, hqueued⟩, hn⟩ := (hquiet.and hsynced).exists
      obtain ⟨hmyn, hchildn⟩ := hget n hn
      have hqf : QuietFor my.key (σ n) := {
        queue := fun hq => by cases hqueued.symm.trans ((hshows n).queued.mpr hq)
        worker := fun wk hwk hreq => by
          obtain ⟨p, hp, _⟩ := (hshows n).busy wk hwk hreq
          cases hpos.symm.trans hp
        mycrd := by rw [← (hshows n).mycrd, hn.1]
        child := by rw [← (hshows n).child, hn.2] }
      obtain ⟨d, hd, hfix⟩ := quiet_fixed (hreached n) hqf hmyn
      obtain ⟨v, hv, rfl⟩ := Option.map_eq_some_iff.mp (hchildn.symm.trans hd)
      exact ⟨v, hv, hfix.same, hfix.status⟩
  obtain ⟨d, rfl, hwanted, hstatus⟩ := hfixed
  have hown : foreign m.obj d.obj = false := hadmits'.own
  have hstatus' : m.obj.status = ⟨d.obj.status.availableReplicas⟩ := by
    rw [← hstatus]
  refine ⟨d.obj, ?_, hsynced.mono fun n hn => ?_⟩
  · have hdesired : Desired m.obj (wanted latest m.obj d.obj) := desired_mutated hown
    rw [hwanted, hm] at hdesired
    exact ⟨hdesired.replicas, hdesired.container, hdesired.templateLabels, hdesired.controller⟩
  · obtain ⟨hmyn, hchildn⟩ := hget n hn
    have hkey : m.obj.key = my.key := core_key hcore
    refine ⟨hchildn, ?_, ?_⟩
    · rw [hmyn, hm, hstatus']
    · have hfix : Fixed m.obj d.obj latest := ⟨hown, hwanted, hstatus⟩
      have hdeploy : m.obj.deployKey = my.deployKey := by rw [deployKey_key, deployKey_key, hkey]
      have hrec := hfix.reconciled (c := (σ n).store.cluster) (hkey ▸ hmyn) (hdeploy ▸ hchildn)
      rwa [hkey] at hrec

/-! ## 6. Behaviours that come to rest -/

/-- Nothing is left to do, for any request. -/
def NothingLeft (k : Key) (st : Loop latest) : Prop :=
  st.queue = [] ∧ st.worker = none ∧ (st.store.mycrds.feed k).pending = [] ∧
    (st.store.deployments.feed (childKey k)).pending = []

/-- A request leaves the queue when it is taken up. -/
theorem Calm.taken {st st' : Loop latest} (h : Calm k st st') (hq : k ∈ st.queue)
    (hq' : k ∉ st'.queue) : st.worker = none ∧ ∃ wk, st'.worker = some wk ∧ wk.req = k := by
  cases h with
  | others s s' q reqs wk h => exact absurd (List.mem_append_left _ hq) hq'
  | start s q k' hk =>
      refine ⟨rfl, _, rfl, ?_⟩
      by_contra hne
      exact hq' (List.mem_filter.mpr ⟨hq, by simpa using Ne.symm hne⟩)
  | call => exact absurd hq hq'
  | done => exact absurd hq hq'
  | retry => exact absurd (List.mem_cons_of_mem _ hq) hq'

/-- **A calm behaviour that comes to rest is fair.** -/
theorem fair_of_idle {σ : Nat → Loop latest}
    (hreach : ControlLoop.Reachable (operator latest) (σ 0))
    (hcalm : ∀ n, σ (n + 1) = σ n ∨ Calm k (σ n) (σ (n + 1))) {n₀ : Nat}
    (hidle : ∀ n, n₀ ≤ n → NothingLeft k (σ n)) : Fair k σ := by
  obtain ⟨τ, hshows, hrun⟩ := calm_views hreach hcalm
  have hlater : ∀ n, NothingLeft k (σ (max n n₀)) := fun n => hidle _ (Nat.le_max_right n n₀)
  refine ⟨Feed.told_of_rest (fun n => ?_) fun n => ⟨_, Nat.le_max_left n n₀, (hlater n).2.2.1⟩,
    Feed.told_of_rest (fun n => ?_) fun n => ⟨_, Nat.le_max_left n n₀, (hlater n).2.2.2⟩,
    fun n hq => ?_, fun n => ?_⟩
  · rw [← (hshows n).mycrd, ← (hshows (n + 1)).mycrd]
    exact (hrun n).mycrd.imp id (Or.imp id fun ⟨_, _, _, _, _, _, _, heq⟩ => ⟨_, heq⟩)
  · rw [← (hshows n).child, ← (hshows (n + 1)).child]
    exact (hrun n).child.imp id (Or.imp id fun ⟨_, _, _, _, _, _, _, _, heq⟩ => ⟨_, heq⟩)
  · obtain ⟨m, hm, hqm, hnot⟩ := Behaviour.last_before (P := fun n => k ∈ (σ n).queue)
      (Nat.le_max_left n n₀) hq (by rw [(hlater n).1]; exact List.not_mem_nil)
    rcases hcalm m with heq | hs
    · rw [heq] at hnot
      exact absurd hqm hnot
    · exact ⟨m, hm, hs.taken hqm hnot⟩
  · refine ⟨max n n₀, Nat.le_max_left n n₀, fun wk hwk => ?_⟩
    cases (hlater n).2.1.symm.trans hwk

/-- What the operator does next for `k`, when nobody else does anything: it goes on with the run,
    an event is handed on, or the first request is taken up. -/
def drive (latest : String → Bool) (k : Key) (st : Loop latest) : Loop latest :=
  match st.worker with
  | some ⟨req, x, .call op next⟩ =>
    ⟨(World.serve latest op (x, st.store)).2.2, st.queue,
      some ⟨req, (World.serve latest op (x, st.store)).2.1,
        next (World.serve latest op (x, st.store)).1⟩⟩
  | some ⟨_, _, .ret (.ok _)⟩ => ⟨st.store, st.queue, none⟩
  | some ⟨req, _, .ret (.error _)⟩ => ⟨st.store, req :: st.queue, none⟩
  | none =>
    match (st.store.mycrds.feed k).pending with
    | _ :: _ => ⟨{ st.store with mycrds := st.store.mycrds.tell k }, st.queue ++ [k], none⟩
    | [] =>
      match (st.store.deployments.feed (childKey k)).pending with
      | o :: _ =>
        ⟨{ st.store with deployments := st.store.deployments.tell (childKey k) },
          st.queue ++ ((st.store.deployments.feed (childKey k)).seen.toList ++ o.toList).filterMap
            fun v => requestOf v.obj, none⟩
      | [] =>
        match st.queue with
        | [] => st
        | req :: q =>
          ⟨st.store, (req :: q).filter (· ≠ req), some ⟨req, {}, reconcile req⟩⟩

theorem drive_calm (k : Key) (st : Loop latest) :
    drive latest k st = st ∨ Calm k st (drive latest k st) := by
  obtain ⟨w, q, wk⟩ := st
  match wk with
  | some ⟨req, x, .call op next⟩ =>
      exact Or.inr (.call w _ q req x _ op next _ .done fun _ => rfl)
  | some ⟨req, x, .ret (.ok u)⟩ => exact Or.inr (.done w q req x)
  | some ⟨req, x, .ret (.error e)⟩ => exact Or.inr (.retry w q req x e)
  | none =>
      unfold drive
      dsimp only
      split
      · rename_i o rest hp
        have hstored : (w.mycrds.tell k).stored.get k = w.mycrds.stored.get k := by
          rw [Watched.tell_stored]
        exact Or.inr (.others w _ q [k] none (.tellMyCRD w k o rest hp) hstored rfl)
      · split
        · rename_i o rest hp
          have hstored : (w.deployments.tell (childKey k)).stored.get (childKey k) =
              w.deployments.stored.get (childKey k) := by
            rw [Watched.tell_stored]
          exact Or.inr (.others w _ q _ none (.tellDeployment w (childKey k) o rest hp) rfl hstored)
        · cases q with
          | nil => exact Or.inl rfl
          | cons req q => exact Or.inr (.start w (req :: q) req List.mem_cons_self)

theorem drive_idle {st : Loop latest} (h : NothingLeft k st) : drive latest k st = st := by
  obtain ⟨w, q, wk⟩ := st
  obtain ⟨rfl, rfl, hm, hc⟩ := h
  dsimp only at hm hc
  simp only [drive, hm, hc]

/-- The operator starts beside a custom resource that was just created. -/
def demoStart : Loop fun _ => false :=
  ⟨⟨.of demoCluster.mycrds, .of demoCluster.deployments⟩, [demo.key], none⟩

def demoBehaviour (n : Nat) : Loop fun _ => false := (drive (fun _ => false) demo.key)^[n] demoStart

theorem demoBehaviour_succ (n : Nat) : demoBehaviour (n + 1) =
    drive (fun _ => false) demo.key (demoBehaviour n) :=
  Function.iterate_succ_apply' ..

/-- It creates the child, is told of it, and finds that nothing is left to do. -/
theorem demo_rests : ((demoBehaviour 14).queue.isEmpty && (demoBehaviour 14).worker.isNone &&
    ((demoBehaviour 14).store.mycrds.feed demo.key).pending.isEmpty &&
    ((demoBehaviour 14).store.deployments.feed (childKey demo.key)).pending.isEmpty) = true := by
  decide +kernel

theorem demo_idle (n : Nat) (hn : 14 ≤ n) : NothingLeft demo.key (demoBehaviour n) := by
  have hrest : NothingLeft demo.key (demoBehaviour 14) := by
    have h := demo_rests
    simp only [Bool.and_eq_true, List.isEmpty_iff, Option.isNone_iff_eq_none] at h
    exact ⟨h.1.1.1, h.1.1.2, h.1.2, h.2⟩
  have hsame : demoBehaviour n = demoBehaviour 14 := by
    induction n, hn using Nat.le_induction with
    | base => rfl
    | succ n hn ih => rw [demoBehaviour_succ, ih, drive_idle hrest]
  rw [hsame]
  exact hrest

/-- When the operator starts, the custom resource is queued. -/
theorem demoStart_reachable : ControlLoop.Reachable (operator fun _ => false) demoStart := by
  refine .boot (s := demoStart.store) ?_
  have hlist : Restart demoStart.store [demo.key] ⟨demoStart.store.mycrds.relist,
      demoStart.store.deployments.relist⟩ := by
    refine .list _ _ (fun k my hmy => ?_) fun k d r hd hr => ?_
    · have hcluster : demoStart.store.cluster.mycrds = demoCluster.mycrds := Watched.of_stored _
      rw [hcluster] at hmy
      by_cases hk : k = demo.key
      · exact List.mem_singleton.mpr hk
      · rw [show demoCluster.mycrds.get k = none from Function.update_of_ne hk ..] at hmy
        cases hmy
    · cases hd
  exact hlist

theorem eventually_settled_demo : ∃ child, Desired demo child ∧ ∀ᶠ n in atTop,
    (demoBehaviour n).store.cluster.deployments.get demo.deployKey = some child ∧
      (demoBehaviour n).store.cluster.mycrds.get demo.key =
        some { demo with status := ⟨child.status.availableReplicas⟩ } ∧
      reconciled demo.key (demoBehaviour n).store.cluster = (demoBehaviour n).store.cluster := by
  have hcalm : ∀ n, demoBehaviour (n + 1) = demoBehaviour n ∨
      Calm demo.key (demoBehaviour n) (demoBehaviour (n + 1)) := by
    intro n
    rw [demoBehaviour_succ]
    exact drive_calm demo.key _
  exact @eventually_settled _ demo demoBehaviour demoStart_reachable hcalm
    (fair_of_idle demoStart_reachable hcalm demo_idle) rfl rfl demo_accepted

end Operator
