/-
  File:      BlogDemo/Frontend/Coherence.lean
  Subject:   THE USER AND THE ACCESS TOKEN OF THE PAGE: is the token one of the user that is shown?

  A login writes both in one block, and so does a logout. The two writes of one variable only are the
  token of a refresh, under the user there is then, and the user of `/myinfo`, over the token there is
  then; each was asked for some awaits before.

  * `Coherent` -- no user, or one whom the pool issued the token to;
  * `timely` -- a refresh or a `/myinfo` is read while the other variable still belongs to it;
    **`coherent_of_timely`** -- of a run of such steps every world is coherent;
    `lateRefresh_not_coherent` -- a run that is not, at whose end nothing is pending.
-/
import BlogDemo.Frontend.Browser

namespace Frontend

open Js Atomic EventLoop Gateway Cognito Runs

variable {ι : Type} [DecidableEq ι]

/-! ## 1. Coherence -/

/-- The user whom the pool issued this access token to. -/
def owner (p : Pool) (token : Option Json) : Option String :=
  match token with
  | some (.str t) => (p.access t).map (·.user)
  | _ => none

/-- **No user, or the user of the access token.** -/
def Coherent (p : Pool) (v : Vars) : Prop :=
  v.user = empty ∨ ∃ u, v.user = some (.str u) ∧ owner p v.accessToken = some u

/-- The body of a response belongs to the variable that it leaves as it is. -/
def belongs (p : Pool) (v : Vars) (url : String) (body : Json) : Bool :=
  if url = "/auth/refresh" then
    v.user == empty || v.user == (owner p (body.get? "accessToken")).map .str
  else if url = "/myinfo" then
    body.get? "username" == (owner p v.accessToken).map .str
  else true

/-- **The step reads no response that came too late.** -/
def timely (w : World ι) : Action ι → Bool
  | .read i none =>
    match w.tasks i with
    | .reading ⟨url, _, _, .json body⟩ _ => belongs w.pool w.vars url body
    | _ => true
  | _ => true

theorem owner_issued {p : Pool} {t u : String} (h : p.Issued t u) :
    owner p (some (.str t)) = some u := by
  obtain ⟨x, hx, rfl⟩ := h
  simp [owner, hx]

theorem owner_later {p p' : Pool} {token : Option Json} {u : String}
    (h : owner p token = some u) (hle : p.Le p') : owner p' token = some u := by
  unfold owner at h
  split at h
  · obtain ⟨x, hx, rfl⟩ := Option.map_eq_some_iff.mp h
    exact owner_issued (Pool.Issued.later ⟨x, hx, rfl⟩ hle)
  · cases h

theorem Coherent.later {p p' : Pool} {v : Vars} (h : Coherent p v) (hle : p.Le p') :
    Coherent p' v :=
  h.imp_right fun ⟨u, hu, howner⟩ => ⟨u, hu, owner_later howner hle⟩

/-! ## 2. What a block writes -/

/-- A request whose URL is the one of a login is the login of this flow. -/
theorem Asked.login {p : Pool} {user password : String} {req : HttpRequest}
    (h : Asked p (.login user password) req) (hurl : req.url = "/auth/login") :
    req = loginRequest user password := by
  obtain ⟨o, v, _, hreq⟩ := h
  cases hreq with
  | login u w hk =>
      cases hk
      rfl
  | refresh => exact absurd hurl (by decide)
  | logout => exact absurd hurl (by simp [logoutRequest])
  | myInfo => exact absurd hurl (by simp [authorized, myInfoRequest])
  | post call => exact absurd hurl (post_url call.request_url).1

/-- **A block that reads what belongs to the variables** keeps them coherent. -/
theorem writes_coherent {p : Pool} {k : Kind} {o : Origin Wait.Out} {v v' : Vars}
    (hw : Writes k o v v') (ho : OriginSound p k o) (hv : Coherent p v)
    (hbelongs : ∀ res data, o = .answered (.json res) (.ok data) → res.body = .json data →
      belongs p v res.url data = true) : Coherent p v' := by
  cases hw with
  | keep => exact hv
  | logout => exact Or.inl rfl
  | login user password hk res data v hok hurl hbody =>
      obtain ⟨req, hasked, hreq, hlogin, _⟩ := ho
      obtain ⟨_, body, u, token, hsent, huser, hbody', htoken, _, hissued⟩ := hlogin hok hurl
      rw [hbody] at hbody'
      cases hbody'
      rw [hk] at hasked
      rw [hasked.login (hreq.symm.trans hurl)] at hsent
      cases hsent
      cases huser
      refine Or.inr ⟨user, rfl, ?_⟩
      show owner p (data.get? "accessToken") = _
      rw [htoken]
      exact owner_issued hissued
  | refresh res data v hok hurl hbody =>
      obtain ⟨req, _, _, _, hrefresh, _⟩ := ho
      obtain ⟨body, u, token, hbody', htoken, _, hissued⟩ := hrefresh hok hurl
      rw [hbody] at hbody'
      cases hbody'
      have howner := owner_issued hissued
      rw [← htoken] at howner
      have hfits := hbelongs res data rfl hbody
      simp only [belongs, hurl, if_true, howner, Option.map_some, Bool.or_eq_true,
        beq_iff_eq] at hfits
      exact hfits.imp_right fun huser => ⟨u, huser, howner⟩
  | myInfo hk res data v hok hurl hbody =>
      obtain ⟨req, _, _, _, _, hinfo, _⟩ := ho
      obtain ⟨body, u, hbody', huser⟩ := hinfo hok hurl
      rw [hbody] at hbody'
      cases hbody'
      have hfits := hbelongs res data rfl hbody
      simp only [belongs, hurl, huser] at hfits
      obtain ⟨_, howner, heq⟩ := Option.map_eq_some_iff.mp (beq_iff_eq.mp hfits).symm
      cases heq
      exact Or.inr ⟨u, huser, howner⟩

variable {kinds : ι → Kind} {w w' : World ι}

theorem run_coherent (hc : Coherent w.pool w.vars) {i : ι}
    {o : Origin Wait.Out} {p : Flow (Except Error Unit)} (ho : OriginSound w.pool (kinds i) o)
    (hp : Obeys access (contract (kinds i)) o w.vars p w.vars)
    (hbelongs : ∀ res data, o = .answered (.json res) (.ok data) → res.body = .json data →
      belongs w.pool w.vars res.url data = true) :
    Coherent (w.run i p).pool (w.run i p).vars :=
  writes_coherent (obeys_block hp).1 ho hc hbelongs

/-! ## 3. Runs -/

/-- **A timely step keeps the variables coherent.** -/
theorem step_coherent {a : Action ι} (hsound : Sound kinds w) (hc : Coherent w.pool w.vars)
    (htimely : timely w a = true) (hs : w.step kinds a = some w') : Coherent w'.pool w'.vars := by
  cases step_view hs with
  | load i hk ht =>
      exact run_coherent (w := w.reload) (o := .begun) (Or.inl rfl) trivial (code_obeys _ _) nofun
  | begin i hk ht => exact run_coherent (o := .begun) hc trivial (code_obeys _ _) nofun
  | serve i d req cookie next ht => exact hc.later handle_le
  | fail i e req stage next ht => exact hc
  | receive i req res next ht => exact hc
  | resume i req r next ht =>
      have hi := hsound.tasks i
      rw [ht] at hi
      obtain ⟨hasked, hres, hnext⟩ := hi
      have hres' : ∀ res, r = .ok res → ResponseSound w.pool req res := by
        rintro res rfl
        exact hres
      exact run_coherent (o := .answered (.fetch req) r) hc ⟨hasked, hres'⟩
        (hnext r (fun res hr => (hres' res hr).1) w.vars) nofun
  | read i e res next ht =>
      have hi := hsound.tasks i
      rw [ht] at hi
      obtain ⟨hasked, hnext⟩ := hi
      refine run_coherent (o := .answered (.json res) _) hc hasked
        (hnext _ (fun data hr => ?_) w.vars) fun res' data heq hbody => ?_
      · cases e with
        | some e => cases hr
        | none => exact Auth.parse_ok hr
      · cases e with
        | some e => cases heq
        | none =>
            obtain ⟨url, status, c, body⟩ := res
            cases body with
            | malformed m => cases heq
            | json value =>
                cases heq
                simpa only [timely, ht] using htimely
  | dropCookie => exact hc
  | command c d => exact hc.later (exec_le d c w.pool)
  | expire token => exact hc.later (expire_le w.pool token)
  | endRefresh token => exact hc.later (endRefresh_le w.pool token)

/-- **In every run that reads no response too late**, the access token is one of the user that is
    shown. -/
theorem coherent_of_timely (kinds : ι → Kind) (pool : Pool) (w : World ι)
    (h : Run (World.step kinds) (fun w a => timely w a = true) (World.start pool) w) :
    Coherent w.pool w.vars :=
  h.invariant (I := fun w => Coherent w.pool w.vars) (Or.inl rfl) fun hrun ih htimely hs =>
    step_coherent (run_sound hrun (start_sound pool)) ih htimely hs

def fourFlows : Fin 4 → Kind
  | 0 => .login "alice" "apple"
  | 1 => .post (.deletePost "1")
  | 2 => .logout
  | 3 => .login "bob" "berry"

/-- Alice logs in and, when her token has expired, deletes a post; her token is refreshed. -/
def aliceDeletes : List (Action (Fin 4)) := [
  .begin 0, .serve 0 (issue "a1" "r1"), .receive 0, .resume 0, .read 0 none, .expire "a1",
  .begin 1, .serve 1 (issue "" ""), .receive 1, .resume 1,
  .serve 1 (issue "a2" ""), .receive 1, .resume 1]

/-- Read at once, the new token is Alice's under her name. -/
theorem coherent_of_timely_alice : ∃ w, Run (World.step fourFlows)
    (fun w a => timely w a = true) (World.start twoUsers) w ∧
    w.vars = ⟨some (.str "a2"), some (.str "alice")⟩ ∧ Coherent w.pool w.vars := by
  have hrun : (script (World.step fourFlows) timely (aliceDeletes ++ [.read 1 none])
      (World.start twoUsers)).any
      (fun w => w.vars = ⟨some (.str "a2"), some (.str "alice")⟩) = true := by
    decide +kernel
  obtain ⟨w, hw, hvars⟩ := (Option.any_eq_true _ _).mp hrun
  have hreach := script_run .start hw
  exact ⟨w, hreach, of_decide_eq_true hvars, coherent_of_timely fourFlows twoUsers w hreach⟩

/-- She logs out and Bob logs in; only now the refreshed token is read. -/
def bobLogsIn : List (Action (Fin 4)) := [
  .begin 2, .serve 2 (issue "" ""), .receive 2, .resume 2,
  .begin 3, .serve 3 (issue "b1" "s1"), .receive 3, .resume 3, .read 3 none,
  .read 1 none, .fail 1 ⟨"TypeError", "Failed to fetch"⟩, .resume 1]

/-- Bob is shown over a token that was issued to Alice. -/
theorem lateRefresh_not_coherent : ¬ ∀ (ι : Type) [DecidableEq ι] (kinds : ι → Kind) (pool : Pool)
    (w : World ι), Run (World.step kinds) free (World.start pool) w → Quiescent w →
    Coherent w.pool w.vars := by
  intro h
  have hrun : (script (World.step fourFlows) (fun _ _ => true) (aliceDeletes ++ bobLogsIn)
      (World.start twoUsers)).any (fun w => decide (Quiescent w ∧
        w.vars = ⟨some (.str "a2"), some (.str "bob")⟩ ∧
        owner w.pool w.vars.accessToken = some "alice")) = true := by
    decide +kernel
  obtain ⟨w, hw, hend⟩ := (Option.any_eq_true _ _).mp hrun
  obtain ⟨hquiescent, hvars, howner⟩ := of_decide_eq_true hend
  rcases h (Fin 4) fourFlows twoUsers w (script_free hw) hquiescent with huser | ⟨u, huser, hu⟩
  · rw [hvars] at huser
    exact absurd huser (by decide)
  · rw [howner] at hu
    cases hu
    rw [hvars] at huser
    exact absurd huser (by decide)

end Frontend
