/-
  File:      BlogDemo/Frontend/Browser.lean
  Subject:   ONE BROWSER AND THE BACKEND: the page's variables, the refresh-token cookie, the user pool
             and any family of flows. A flow runs without interruption from one await to the next, and
             responses arrive in any order.

  A request goes through three stages: it is sent with the cookie of that moment, it is served by the
  backend, and its response arrives, which sets the cookie; its flow resumes after that. A load of
  the page ends every flow and begins the start-up flow. Commands of other clients, and of requests
  that a page gave up, reach the pool at any time, and tokens expire at any time.

  * `World.step`, `Step` -- one step, as a function and as the relation it is (`step_view`);
  * `Sound` -- what holds of every world a run reaches (**`run_sound`**): tokens, cookies and the
    responses under way come from the pool, and each flow obeys its contract.
-/
import BlogDemo.Frontend.App
import BlogDemo.Lib.Runs

namespace Frontend

open Js Atomic EventLoop Gateway Cognito Runs

/-! ## 1. The world -/

/-- What is left of a flow that waits. -/
abbrev Next (a : Wait) := a.Out → Flow (Except Error Unit)

inductive Stage where
  | sent (cookie : Option String)
  | served (res : HttpResponse)
  | settled (r : Except Error HttpResponse)

inductive Task where
  | idle
  | fetching (req : HttpRequest) (stage : Stage) (next : Next (.fetch req))
  | reading (res : HttpResponse) (next : Next (.json res))
  | ended

/-- The task waits for a response or a body. -/
def Task.Pending : Task → Prop
  | .fetching _ _ _ => True
  | .reading _ _ => True
  | _ => False

instance : DecidablePred Task.Pending
  | .fetching _ _ _ => .isTrue trivial
  | .reading _ _ => .isTrue trivial
  | .idle => .isFalse id
  | .ended => .isFalse id

structure World (ι : Type) where
  vars : Vars
  /-- The refresh token in the cookie. -/
  jar : Option String
  pool : Pool
  tasks : ι → Task

/-- A browser without cookies, before the page is loaded. -/
def World.start {ι : Type} (pool : Pool) : World ι := ⟨Vars.start, none, pool, fun _ => .idle⟩

/-- No flow waits for a response or a body. -/
def Quiescent {ι : Type} (w : World ι) : Prop := ∀ i, ¬ (w.tasks i).Pending

instance {n : Nat} (w : World (Fin n)) : Decidable (Quiescent w) :=
  inferInstanceAs (Decidable (∀ i : Fin n, ¬ (w.tasks i).Pending))

inductive Action (ι : Type) where
  | load (i : ι)
  | begin (i : ι)
  | serve (i : ι) (d : Gateway.Decision)
  | fail (i : ι) (e : Error)
  | receive (i : ι)
  | resume (i : ι)
  | read (i : ι) (e : Option Error)
  | dropCookie
  | command (c : Command) (d : Cognito.Decision)
  | expire (token : String)
  | endRefresh (token : String)

variable {ι : Type} [DecidableEq ι]

/-! ## 2. Steps -/

/-- A flow where its block stopped. -/
def taskOf (jar : Option String) : Rest Access.Out Wait.Out (Except Error Unit) → Task
  | .ended _ => .ended
  | .waiting (.fetch req) next => .fetching req (.sent (if req.credentials then jar else none)) next
  | .waiting (.json res) next => .reading res next

def World.put (w : World ι) (i : ι) (t : Task) : World ι :=
  { w with tasks := Function.update w.tasks i t }

/-- The flow `i` runs a block. -/
def World.run (w : World ι) (i : ι) (p : Flow (Except Error Unit)) : World ι :=
  { w with vars := (block access p w.vars).1 }.put i (taskOf w.jar (block access p w.vars).2)

/-- The page with every flow ended. -/
def World.reload (w : World ι) : World ι where
  vars := Vars.start
  jar := w.jar
  pool := w.pool
  tasks j := match w.tasks j with
    | .idle => .idle
    | _ => .ended

/-- The cookie after a response with this header. -/
def setCookie (jar : Option String) : Option Auth.SetCookie → Option String
  | some c => if c.maxAge = 0 then none else some c.value
  | none => jar

/-- **One step.** -/
def World.step (kinds : ι → Kind) (w : World ι) : Action ι → Option (World ι)
  | .load i =>
    match kinds i, w.tasks i with
    | .load, .idle => some (w.reload.run i Kind.load.code)
    | _, _ => none
  | .begin i =>
    match kinds i, w.tasks i with
    | .load, _ => none
    | k, .idle => some (w.run i k.code)
    | _, _ => none
  | .serve i d =>
    match w.tasks i with
    | .fetching req (.sent cookie) next =>
      let (res, pool) := handle d req cookie w.pool
      some ({ w with pool := pool }.put i (.fetching req (.served res) next))
    | _ => none
  | .fail i e =>
    match w.tasks i with
    | .fetching req (.sent _) next => some (w.put i (.fetching req (.settled (.error e)) next))
    | .fetching req (.served _) next => some (w.put i (.fetching req (.settled (.error e)) next))
    | _ => none
  | .receive i =>
    match w.tasks i with
    | .fetching req (.served res) next =>
      let jar := if req.credentials then setCookie w.jar res.setCookie else w.jar
      some ({ w with jar := jar }.put i (.fetching req (.settled (.ok res)) next))
    | _ => none
  | .resume i =>
    match w.tasks i with
    | .fetching _ (.settled r) next => some (w.run i (next r))
    | _ => none
  | .read i e =>
    match w.tasks i with
    | .reading res next =>
      some (w.run i (next (match e with | some e => .error e | none => Js.parse res.body)))
    | _ => none
  | .dropCookie => some { w with jar := none }
  | .command c d => some { w with pool := (exec d c w.pool).2 }
  | .expire token => some { w with pool := w.pool.expire token }
  | .endRefresh token => some { w with pool := w.pool.endRefresh token }

/-- **One step, case by case.** -/
inductive Step (kinds : ι → Kind) (w : World ι) : Action ι → World ι → Prop where
  | load (i : ι) (hk : kinds i = .load) (ht : w.tasks i = .idle) :
      Step kinds w (.load i) (w.reload.run i (kinds i).code)
  | begin (i : ι) (hk : kinds i ≠ .load) (ht : w.tasks i = .idle) :
      Step kinds w (.begin i) (w.run i (kinds i).code)
  | serve (i : ι) (d : Gateway.Decision) (req : HttpRequest) (cookie : Option String)
      (next : Next (.fetch req)) (ht : w.tasks i = .fetching req (.sent cookie) next) :
      Step kinds w (.serve i d) ({ w with pool := (handle d req cookie w.pool).2 }.put i
        (.fetching req (.served (handle d req cookie w.pool).1) next))
  | fail (i : ι) (e : Error) (req : HttpRequest) (stage : Stage) (next : Next (.fetch req))
      (ht : w.tasks i = .fetching req stage next) :
      Step kinds w (.fail i e) (w.put i (.fetching req (.settled (.error e)) next))
  | receive (i : ι) (req : HttpRequest) (res : HttpResponse) (next : Next (.fetch req))
      (ht : w.tasks i = .fetching req (.served res) next) :
      Step kinds w (.receive i)
        ({ w with jar := if req.credentials then setCookie w.jar res.setCookie else w.jar }.put i
          (.fetching req (.settled (.ok res)) next))
  | resume (i : ι) (req : HttpRequest) (r : Except Error HttpResponse) (next : Next (.fetch req))
      (ht : w.tasks i = .fetching req (.settled r) next) :
      Step kinds w (.resume i) (w.run i (next r))
  | read (i : ι) (e : Option Error) (res : HttpResponse) (next : Next (.json res))
      (ht : w.tasks i = .reading res next) :
      Step kinds w (.read i e)
        (w.run i (next (match e with | some e => .error e | none => Js.parse res.body)))
  | dropCookie : Step kinds w .dropCookie { w with jar := none }
  | command (c : Command) (d : Cognito.Decision) :
      Step kinds w (.command c d) { w with pool := (exec d c w.pool).2 }
  | expire (token : String) : Step kinds w (.expire token) { w with pool := w.pool.expire token }
  | endRefresh (token : String) :
      Step kinds w (.endRefresh token) { w with pool := w.pool.endRefresh token }

theorem step_view {kinds : ι → Kind} {w w' : World ι} {a : Action ι}
    (h : w.step kinds a = some w') : Step kinds w a w' := by
  unfold World.step at h
  cases a with
  | load i =>
      dsimp only at h
      split at h
      · rename_i hk ht
        cases h
        have hs := Step.load (w := w) i hk ht
        rwa [hk] at hs
      · cases h
  | begin i =>
      dsimp only at h
      split at h
      · cases h
      · rename_i hk ht _
        cases h
        exact .begin i ‹_› ht
      · cases h
  | serve i d =>
      dsimp only at h
      split at h
      · rename_i ht
        cases h
        exact .serve i d _ _ _ ht
      · cases h
  | fail i e =>
      dsimp only at h
      split at h
      · rename_i ht
        cases h
        exact .fail i e _ _ _ ht
      · rename_i ht
        cases h
        exact .fail i e _ _ _ ht
      · cases h
  | receive i =>
      dsimp only at h
      split at h
      · rename_i ht
        cases h
        exact .receive i _ _ _ ht
      · cases h
  | resume i =>
      dsimp only at h
      split at h
      · rename_i ht
        cases h
        exact .resume i _ _ _ ht
      · cases h
  | read i e =>
      dsimp only at h
      split at h
      · rename_i ht
        cases h
        exact .read i e _ _ ht
      · cases h
  | dropCookie => cases h; exact .dropCookie
  | command c d => cases h; exact .command c d
  | expire token => cases h; exact .expire token
  | endRefresh token => cases h; exact .endRefresh token

/-- A pool of two accounts, and the decision that issues these tokens. -/
def twoUsers : Pool where
  password u := if u = "alice" then some "apple" else if u = "bob" then some "berry" else none
  attributes _ := []
  access _ := none
  refresh _ := none

def issue (access refresh : String) : Gateway.Decision := { cognito := ⟨access, refresh, "id", none⟩ }

/-! ## 3. Where tokens and responses come from -/

/-- The empty token, or one the pool has issued. -/
def TokenKnown (p : Pool) (v : Option Json) : Prop :=
  ∃ t, v = some (.str t) ∧ (t = "" ∨ isToken t = true ∧ ∃ u, p.Issued t u)

def CookieKnown (p : Pool) (t : String) : Prop := isToken t = true ∧ p.refresh t ≠ none

/-- A flow of this kind has sent the request. -/
def Asked (p : Pool) (k : Kind) (req : HttpRequest) : Prop :=
  ∃ o v, TokenKnown p v.accessToken ∧ Awaits k o v (.fetch req)

/-- The response is one to the request. -/
def ResponseSound (p : Pool) (req : HttpRequest) (res : HttpResponse) : Prop :=
  res.url = req.url ∧ HandsOut p req res

def StageSound (p : Pool) (req : HttpRequest) : Stage → Prop
  | .sent cookie => ∀ t ∈ cookie, CookieKnown p t
  | .served res => ResponseSound p req res
  | .settled (.ok res) => ResponseSound p req res
  | .settled (.error _) => True

def TaskSound (p : Pool) (k : Kind) : Task → Prop
  | .fetching req stage next => Asked p k req ∧ StageSound p req stage ∧
    ∀ r, answers (.fetch req) r →
      ∀ v, Obeys access (contract k) (.answered (.fetch req) r) v (next r) v
  | .reading res next => (∃ req, Asked p k req ∧ ResponseSound p req res) ∧
    ∀ r, answers (.json res) r →
      ∀ v, Obeys access (contract k) (.answered (.json res) r) v (next r) v
  | _ => True

/-- What a block begins with comes from the pool. -/
def OriginSound (p : Pool) (k : Kind) : Origin Wait.Out → Prop
  | .begun => True
  | .answered (.fetch req) r => Asked p k req ∧ ∀ res, r = .ok res → ResponseSound p req res
  | .answered (.json res) _ => ∃ req, Asked p k req ∧ ResponseSound p req res

/-- **What holds of every world a run reaches.** -/
structure Sound (kinds : ι → Kind) (w : World ι) : Prop where
  token : TokenKnown w.pool w.vars.accessToken
  jar : ∀ t ∈ w.jar, CookieKnown w.pool t
  tasks : ∀ i, TaskSound w.pool (kinds i) (w.tasks i)

section Later

variable {p p' : Pool} {k : Kind}

theorem TokenKnown.later {v : Option Json} (h : TokenKnown p v) (hle : p.Le p') :
    TokenKnown p' v := by
  obtain ⟨t, rfl, ht⟩ := h
  refine ⟨t, rfl, ht.imp_right fun ⟨htoken, u, hu⟩ => ⟨htoken, u, hu.later hle⟩⟩

theorem known_later {t : String} (h : p.refresh t ≠ none) (hle : p.Le p') :
    p'.refresh t ≠ none := by
  obtain ⟨x, hx⟩ := Option.ne_none_iff_exists'.mp h
  obtain ⟨x', hx', _⟩ := hle.refresh t x hx
  rw [hx']
  simp

theorem CookieKnown.later {t : String} (h : CookieKnown p t) (hle : p.Le p') : CookieKnown p' t :=
  ⟨h.1, known_later h.2 hle⟩

theorem Asked.later {req : HttpRequest} (h : Asked p k req) (hle : p.Le p') : Asked p' k req := by
  obtain ⟨o, v, hv, hreq⟩ := h
  exact ⟨o, v, hv.later hle, hreq⟩

theorem ResponseSound.later {req : HttpRequest} {res : HttpResponse} (h : ResponseSound p req res)
    (hle : p.Le p') : ResponseSound p' req res := by
  obtain ⟨hurl, hlogin, hrefresh, hinfo, hcookie⟩ := h
  refine ⟨hurl, fun hok hu => ?_, fun hok hu => ?_, hinfo, fun c hc => ?_⟩
  · obtain ⟨data, body, user, token, h1, h2, h3, h4, h5, h6⟩ := hlogin hok hu
    exact ⟨data, body, user, token, h1, h2, h3, h4, h5, h6.later hle⟩
  · obtain ⟨body, user, token, h1, h2, h3, h4⟩ := hrefresh hok hu
    exact ⟨body, user, token, h1, h2, h3, h4.later hle⟩
  · exact (hcookie c hc).imp_right fun ⟨h1, h2, h3⟩ => ⟨h1, h2, known_later h3 hle⟩

theorem TaskSound.later {t : Task} (h : TaskSound p k t) (hle : p.Le p') : TaskSound p' k t := by
  cases t with
  | idle => trivial
  | ended => trivial
  | reading res next =>
      obtain ⟨⟨req, hasked, hres⟩, hnext⟩ := h
      exact ⟨⟨req, hasked.later hle, hres.later hle⟩, hnext⟩
  | fetching req stage next =>
      obtain ⟨hasked, hstage, hnext⟩ := h
      refine ⟨hasked.later hle, ?_, hnext⟩
      match stage with
      | .sent cookie => exact fun t ht => (hstage t ht).later hle
      | .served res => exact hstage.later hle
      | .settled (.ok res) => exact hstage.later hle
      | .settled (.error e) => trivial

end Later

variable {kinds : ι → Kind} {w w' : World ι}

omit [DecidableEq ι] in
theorem Sound.later (h : Sound kinds w) {pool : Pool} (hle : w.pool.Le pool) :
    Sound kinds { w with pool := pool } :=
  ⟨h.token.later hle, fun t ht => (h.jar t ht).later hle, fun i => (h.tasks i).later hle⟩

/-- One task is another one. -/
theorem Sound.put (h : Sound kinds w) {i : ι} {t : Task} (ht : TaskSound w.pool (kinds i) t) :
    Sound kinds (w.put i t) := by
  refine ⟨h.token, h.jar, fun j => ?_⟩
  by_cases hj : j = i
  · subst hj
    simpa [World.put] using ht
  · simpa [World.put, hj] using h.tasks j

/-- What a block writes is known. -/
theorem writes_token {p : Pool} {k : Kind} {o : Origin Wait.Out} {v v' : Vars}
    (hw : Writes k o v v') (ho : OriginSound p k o) (hv : TokenKnown p v.accessToken) :
    TokenKnown p v'.accessToken := by
  cases hw with
  | keep => exact hv
  | logout => exact ⟨"", rfl, Or.inl rfl⟩
  | myInfo => exact hv
  | login user password hk res data v hok hurl hbody =>
      obtain ⟨req, _, _, hlogin, _, _⟩ := ho
      obtain ⟨_, body, u, token, _, _, hbody', htoken, his, hissued⟩ := hlogin hok hurl
      rw [hbody] at hbody'
      cases hbody'
      exact ⟨token, htoken, Or.inr ⟨his, u, hissued⟩⟩
  | refresh res data v hok hurl hbody =>
      obtain ⟨req, _, _, _, hrefresh, _, _⟩ := ho
      obtain ⟨body, u, token, hbody', htoken, his, hissued⟩ := hrefresh hok hurl
      rw [hbody] at hbody'
      cases hbody'
      exact ⟨token, htoken, Or.inr ⟨his, u, hissued⟩⟩

/-- **A block keeps the world sound.** -/
theorem Sound.run (h : Sound kinds w) {i : ι} {o : Origin Wait.Out}
    {p : Flow (Except Error Unit)} (ho : OriginSound w.pool (kinds i) o)
    (hp : Obeys access (contract (kinds i)) o w.vars p w.vars) : Sound kinds (w.run i p) := by
  obtain ⟨hwrites, hrest⟩ := obeys_block hp
  have htoken := writes_token hwrites ho h.token
  have hw : Sound kinds { w with vars := (block access p w.vars).1 } := ⟨htoken, h.jar, h.tasks⟩
  refine hw.put ?_
  show TaskSound w.pool (kinds i) _
  generalize block access p w.vars = b at hrest htoken
  obtain ⟨v, rest⟩ := b
  match rest with
  | .ended r => trivial
  | .waiting (.fetch req) next =>
      obtain ⟨hawaits, hnext⟩ := hrest
      refine ⟨⟨o, v, htoken, hawaits⟩, fun t ht => ?_, hnext⟩
      split at ht
      · exact h.jar t ht
      · cases ht
  | .waiting (.json res) next =>
      obtain ⟨hawaits, hnext⟩ := hrest
      cases hawaits with
      | json req _ _ hok => exact ⟨⟨req, ho.1, ho.2 res rfl⟩, hnext⟩

omit [DecidableEq ι] in
theorem Sound.reload (h : Sound kinds w) : Sound kinds w.reload := by
  refine ⟨⟨"", rfl, Or.inl rfl⟩, h.jar, fun i => ?_⟩
  show TaskSound w.pool (kinds i) (match w.tasks i with | .idle => .idle | _ => .ended)
  split <;> trivial

/-- The cookie after a response is known. -/
theorem received_cookie {p : Pool} {req : HttpRequest} {res : HttpResponse} {jar : Option String}
    (h : HandsOut p req res) (hjar : ∀ t ∈ jar, CookieKnown p t) :
    ∀ t ∈ (if req.credentials then setCookie jar res.setCookie else jar), CookieKnown p t := by
  intro t ht
  split at ht
  · cases hc : res.setCookie with
    | none =>
        rw [hc] at ht
        exact hjar t ht
    | some c =>
        rw [hc, setCookie] at ht
        rcases h.cookie c hc with hzero | ⟨_, hknown⟩
        · rw [if_pos hzero] at ht
          cases ht
        · split at ht
          · cases ht
          · cases ht
            exact hknown
  · exact hjar t ht

/-- **One step keeps the world sound.** -/
theorem step_sound {a : Action ι} (h : Sound kinds w) (hs : w.step kinds a = some w') :
    Sound kinds w' := by
  cases step_view hs with
  | load i hk ht => exact h.reload.run (o := .begun) trivial (code_obeys _ _)
  | begin i hk ht => exact h.run (o := .begun) trivial (code_obeys _ _)
  | serve i d req cookie next ht =>
      have hi := h.tasks i
      rw [ht] at hi
      obtain ⟨hasked, _, hnext⟩ := hi
      have hle : w.pool.Le (handle d req cookie w.pool).2 := handle_le
      exact (h.later hle).put ⟨hasked.later hle, ⟨handle_url, handsOut d req cookie w.pool⟩, hnext⟩
  | fail i e req stage next ht =>
      have hi := h.tasks i
      rw [ht] at hi
      exact h.put ⟨hi.1, trivial, hi.2.2⟩
  | receive i req res next ht =>
      have hi := h.tasks i
      rw [ht] at hi
      obtain ⟨hasked, hres, hnext⟩ := hi
      have hw : Sound kinds
          { w with jar := if req.credentials then setCookie w.jar res.setCookie else w.jar } := by
        refine ⟨h.token, fun t htj => ?_, h.tasks⟩
        exact received_cookie hres.2 h.jar t htj
      exact hw.put ⟨hasked, hres, hnext⟩
  | resume i req r next ht =>
      have hi := h.tasks i
      rw [ht] at hi
      obtain ⟨hasked, hres, hnext⟩ := hi
      have hsound : ∀ res, r = .ok res → ResponseSound w.pool req res := by
        rintro res rfl
        exact hres
      exact h.run (o := .answered (.fetch req) r) ⟨hasked, hsound⟩
        (hnext r (fun res hr => (hsound res hr).1) w.vars)
  | read i e res next ht =>
      have hi := h.tasks i
      rw [ht] at hi
      obtain ⟨hasked, hnext⟩ := hi
      refine h.run (o := .answered (.json res) _) hasked (hnext _ (fun data hr => ?_) w.vars)
      cases e with
      | some e => cases hr
      | none => exact Auth.parse_ok hr
  | dropCookie => exact ⟨h.token, nofun, h.tasks⟩
  | command c d => exact h.later (exec_le d c w.pool)
  | expire token => exact h.later (expire_le w.pool token)
  | endRefresh token => exact h.later (endRefresh_le w.pool token)

omit [DecidableEq ι] in
theorem start_sound (pool : Pool) : Sound kinds (World.start pool) :=
  ⟨⟨"", rfl, Or.inl rfl⟩, nofun, fun _ => trivial⟩

/-- **Every world a run reaches is sound.** -/
theorem run_sound {C : World ι → Action ι → Prop} (h : Run (World.step kinds) C w w')
    (h₀ : Sound kinds w) : Sound kinds w' :=
  h.invariant h₀ fun _ ih _ hs => step_sound ih hs

end Frontend
