/-
  File:      BlogDemo/Frontend/Retry.lean
  Subject:   A CALL THAT WRITES A POST AND ITS RETRY: fetchWithAuth over the HTTP API and the post
             handlers, when the request is answered 401, before a handler runs or by it.

  * `Early401` -- a handler answers 401 before its first command or not at all; each of the three
    handlers that write posts is of this kind;
  * `Answered`, `Exchanges` -- the answers to one request with the commands it led to, and those to
    the requests of a flow;
    **`writes_once`** -- a call is sent at most twice, and writes at most once.
-/
import BlogDemo.Frontend.App
import BlogDemo.Lambda.Posts

namespace Frontend

open Js Atomic EventLoop Gateway
open Lambda (Event Command Answer Handler counterUpdate createPost updatePost deletePost)

/-! ## 1. Where the handlers answer 401 -/

/-- **Once it has sent a command the handler does not answer 401**, whatever it is answered. -/
def Early401 : Handler → Prop
  | .ret _ => True
  | .call _ next =>
    ∀ r, (next r).Meets (fun _ => True) (fun _ _ => True) fun res => res.statusCode ≠ 401

theorem createPost_early (now : String) (ev : Event) : Early401 (createPost now ev) := by
  simp only [createPost, Lambda.getNextId, Lambda.send, Prog.catching_lift, Prog.catching_ite,
    Prog.catching_pure, Prog.catching_send, bind_assoc, pure_bind]
  split
  · split
    · trivial
    · split
      · trivial
      · intro r
        cases r with
        | error e =>
            intro h
            cases h
        | ok out =>
            dsimp only
            split
            · refine ⟨trivial, fun r _ => ?_⟩
              cases r <;> (intro h; cases h)
            · intro h
              cases h
  · trivial

theorem updatePost_early (ev : Event) : Early401 (updatePost ev) := by
  simp only [updatePost, Lambda.send, Prog.catching_lift, Prog.catching_ite, Prog.catching_pure,
    Prog.catching_send]
  split
  · trivial
  · split
    · split
      · trivial
      · split
        · trivial
        · intro r
          cases r with
          | error e =>
              intro h
              cases h
          | ok out =>
              obtain ⟨item | item, attributes⟩ := out
              · intro h
                cases h
              · simp only [Prog.catching_ite, Prog.catching_pure, Prog.catching_lift,
                  Prog.catching_send]
                split
                · intro h
                  cases h
                · split
                  · refine ⟨trivial, fun r _ => ?_⟩
                    cases r <;> (intro h; cases h)
                  · intro h
                    cases h
    · trivial

theorem deletePost_early (ev : Event) : Early401 (deletePost ev) := by
  simp only [deletePost, Lambda.send, Prog.catching_ite, Prog.catching_pure, Prog.catching_send]
  split
  · trivial
  · split
    · trivial
    · intro r
      cases r with
      | error e =>
          intro h
          cases h
      | ok out =>
          obtain ⟨item | item, attributes⟩ := out
          · intro h
            cases h
          · simp only [Prog.catching_ite, Prog.catching_pure, Prog.catching_send]
            split
            · intro h
              cases h
            · refine ⟨trivial, fun r _ => ?_⟩
              cases r <;> (intro h; cases h)

variable {σ : Type} {E : Effect Command Answer σ} {s s' : σ} {es : List (Made Command Answer)}
  {res : Lambda.Response}

theorem Early401.no_command {p : Handler} (hp : Early401 p) (h : Exec E p s es res s')
    (h401 : res.statusCode = 401) : es = [] := by
  cases h with
  | ret => rfl
  | call he h => exact absurd h401 (h.meets (hp _) fun _ _ => trivial)

/-! ## 2. What the handlers write -/

def isWrite : Command → Bool
  | .get _ => false
  | _ => true

/-- The commands of a run that write, in order. -/
def writes (es : List (Made Command Answer)) : List Command := (es.map (·.op)).filter isWrite

/-- **The writes are those of the call's operation, or the first of them.** -/
def PostCall.Performs (call : PostCall) (ws : List Command) : Prop :=
  match call with
  | .createPost _ _ => ∃ item, ws <+: [.update counterUpdate, .put ⟨"Posts", item⟩]
  | .updatePost _ _ _ => ∃ id values, ws <+: [.update (Lambda.updateCommand id values)]
  | .deletePost _ => ∃ id, ws <+: [.delete ⟨"Posts", ("id", .str id)⟩]

theorem PostCall.Performs.shorter {call : PostCall} {ws ws' : List Command}
    (h : call.Performs ws) (hp : ws' <+: ws) : call.Performs ws' := by
  cases call with
  | createPost => exact h.imp fun item h => hp.trans h
  | updatePost => exact h.imp fun id h => h.imp fun values h => hp.trans h
  | deletePost => exact h.imp fun id h => hp.trans h

theorem PostCall.performs_nil (call : PostCall) : call.Performs (writes []) := by
  cases call with
  | createPost => exact ⟨[], List.nil_prefix⟩
  | updatePost => exact ⟨"", [], List.nil_prefix⟩
  | deletePost => exact ⟨"", List.nil_prefix⟩

theorem writes_final {p : Handler} (hp : Prog.Final p) (h : Exec E p s es res s') : es = [] := by
  obtain ⟨a, rfl⟩ := hp
  exact (exec_ret h).1

theorem createPost_performs {now : String} {ev : Event}
    (h : Exec E (createPost now ev) s es res s') :
    ∃ item, writes es <+: [.update counterUpdate, .put ⟨"Posts", item⟩] := by
  rcases Lambda.createPost_calls now ev with hfinal | ⟨next, hp, herror, hok⟩
  · rw [writes_final hfinal h]
    exact ⟨[], List.nil_prefix⟩
  · rw [hp] at h
    obtain ⟨r, s₁, es₁, rfl, _, h₁⟩ := exec_call h
    cases r with
    | error e =>
        rw [writes_final (herror e) h₁]
        exact ⟨[], [_], rfl⟩
    | ok out =>
        obtain ⟨item, next', hput, _, hfinal⟩ := hok out
        rw [hput] at h₁
        obtain ⟨r', s₂, es₂, rfl, _, h₂⟩ := exec_call h₁
        rw [writes_final (hfinal r') h₂]
        exact ⟨item, List.prefix_rfl⟩

/-- A handler that reads an item, and then is done or sends one more command. -/
theorem writes_afterRead {key : Lambda.GetCommand} {next : Answer (.get key) → Handler} {w : Command}
    (hw : isWrite w = true) (herror : ∀ e, Prog.Final (next (.error e)))
    (hok : ∀ out, Prog.Final (next (.ok out)) ∨
      ∃ next', next (.ok out) = .call w next' ∧ ∀ r, Prog.Final (next' r))
    (h : Exec E (.call (.get key) next) s es res s') : writes es <+: [w] := by
  obtain ⟨r, s₁, es₁, rfl, _, h₁⟩ := exec_call h
  cases r with
  | error e =>
      rw [writes_final (herror e) h₁]
      exact List.nil_prefix
  | ok out =>
      rcases hok out with hfinal | ⟨next', hwrite, hfinal⟩
      · rw [writes_final hfinal h₁]
        exact List.nil_prefix
      · rw [hwrite] at h₁
        obtain ⟨r', s₂, es₂, rfl, _, h₂⟩ := exec_call h₁
        rw [writes_final (hfinal r') h₂]
        have hread : isWrite (.get key) = false := rfl
        simp only [writes, List.map_cons, List.map_nil, List.filter_cons, hread, hw, if_true,
          Bool.false_eq_true, if_false, List.filter_nil, List.prefix_rfl]

theorem updatePost_performs {ev : Event} (h : Exec E (updatePost ev) s es res s') :
    ∃ id values, writes es <+: [.update (Lambda.updateCommand id values)] := by
  rcases Lambda.updatePost_calls ev with hfinal | ⟨id, title, content, next, hp, herror, hok⟩
  · rw [writes_final hfinal h]
    exact ⟨"", [], List.nil_prefix⟩
  · rw [hp] at h
    refine ⟨id, [(":t", title), (":c", content)],
      writes_afterRead rfl herror (fun out => (hok out).imp_right ?_) h⟩
    intro hnext
    obtain ⟨item, next', _, _, hupdate, hfinal⟩ := hnext
    exact ⟨next', hupdate, hfinal⟩

theorem deletePost_performs {ev : Event} (h : Exec E (deletePost ev) s es res s') :
    ∃ id, writes es <+: [.delete ⟨"Posts", ("id", .str id)⟩] := by
  rcases Lambda.deletePost_calls ev with hfinal | ⟨id, _, next, hp, _, herror, hok⟩
  · rw [writes_final hfinal h]
    exact ⟨"", List.nil_prefix⟩
  · rw [hp] at h
    refine ⟨id, writes_afterRead rfl herror (fun out => (hok out).imp_right ?_) h⟩
    intro hnext
    obtain ⟨item, next', _, _, hdelete, hfinal⟩ := hnext
    exact ⟨next', hdelete, hfinal⟩

/-! ## 3. Requests and their answers -/

/-- The handler of a route of the posts. -/
def handlerOf (now : String) (req : HttpRequest) : Option (Event → Handler) :=
  if req.method = "POST" ∧ req.url = "/posts" then some (createPost now)
  else if req.method = "PUT" ∧ startsWith req.url "/posts/" then some updatePost
  else if req.method = "DELETE" ∧ startsWith req.url "/posts/" then some deletePost
  else none

/-- **What a request is answered**, and the commands it leads to. The path parameter and the claims
    are what the gateway makes of the path and the token; a handler that was cut off, by its time
    limit or by the network, leaves the first of its commands and no answer of its own. -/
inductive Answered (E : Effect Command Answer σ) (req : HttpRequest) :
    List (Made Command Answer) → Except Error HttpResponse → Prop where
  | elsewhere (r : Except Error HttpResponse) : Answered E req [] r
  | handled (now : String) (handler : Event → Handler) (id : Option String) (claims : Option Json)
      (s s' : σ) (es : List (Made Command Answer)) (res : Lambda.Response) (body : Text)
      (hroute : handlerOf now req = some handler)
      (h : Exec E (handler ⟨id, req.body, claims⟩) s es res s') :
      Answered E req es (.ok ⟨req.url, res.statusCode, none, body⟩)
  | cutOff (now : String) (handler : Event → Handler) (id : Option String) (claims : Option Json)
      (s s' : σ) (es es' : List (Made Command Answer)) (res : Lambda.Response)
      (hroute : handlerOf now req = some handler)
      (h : Exec E (handler ⟨id, req.body, claims⟩) s es res s') (hes : es' <+: es)
      (r : Except Error HttpResponse) (hr : ∀ res, r = .ok res → res.status ≠ 401) :
      Answered E req es' r

/-- The requests a flow sends, each with the commands it led to. -/
abbrev Exchanges := List (HttpRequest × List (Made Command Answer))

/-- **A flow up to any moment**, with its requests answered in any way, and its variables changed in
    any way while it waits. -/
inductive Sends {α : Type} (E : Effect Command Answer σ) : Flow α → Vars → Exchanges → Prop where
  | pause (p : Flow α) (v : Vars) : Sends E p v []
  | now {a : Access} {next : a.Out → Flow α} {v : Vars} {xs : Exchanges}
      (h : Sends E (next (access a v).1) (access a v).2 xs) : Sends E (.call (.now a) next) v xs
  | fetch {req : HttpRequest} {next : Except Error HttpResponse → Flow α} {v v' : Vars}
      {es : List (Made Command Answer)} {r : Except Error HttpResponse} {xs : Exchanges}
      (hr : Answered E req es r) (h : Sends E (next r) v' xs) :
      Sends E (.call (.await (.fetch req)) next) v ((req, es) :: xs)
  | json {res : HttpResponse} {next : Except Error Json → Flow α} {v v' : Vars}
      {r : Except Error Json} {xs : Exchanges} (h : Sends E (next r) v' xs) :
      Sends E (.call (.await (.json res)) next) v xs

/-- A request of the call leads to writes of its operation, and to none when it is answered 401. -/
theorem answered_performs {call : PostCall} {token : Option Json}
    {r : Except Error HttpResponse} (h : Answered E (authorized call.request token) es r) :
    call.Performs (writes es) ∧ ∀ res, r = .ok res → res.status = 401 → es = [] := by
  have hroute : ∀ now handler, handlerOf now (authorized call.request token) = some handler →
      ∀ ev, Early401 (handler ev) ∧ ∀ s es res s', Exec E (handler ev) s es res s' →
        call.Performs (writes es) := by
    intro now handler hroute ev
    cases call with
    | createPost title content =>
        cases hroute
        exact ⟨createPost_early now ev, fun _ _ _ _ h => createPost_performs h⟩
    | updatePost id title content =>
        obtain rfl : updatePost = handler := by
          simpa [handlerOf, authorized, PostCall.request, startsWith_append] using hroute
        exact ⟨updatePost_early ev, fun _ _ _ _ h => updatePost_performs h⟩
    | deletePost id =>
        obtain rfl : deletePost = handler := by
          simpa [handlerOf, authorized, PostCall.request, startsWith_append] using hroute
        exact ⟨deletePost_early ev, fun _ _ _ _ h => deletePost_performs h⟩
  cases h with
  | elsewhere r => exact ⟨call.performs_nil, fun _ _ _ => rfl⟩
  | handled now handler id claims s s' es res body hr h =>
      obtain ⟨hearly, hperforms⟩ := hroute now handler hr _
      refine ⟨hperforms _ _ _ _ h, fun res' heq h401 => ?_⟩
      cases heq
      exact hearly.no_command h h401
  | cutOff now handler id claims s s' es es' res hr h hes r hno =>
      obtain ⟨_, hperforms⟩ := hroute now handler hr _
      exact ⟨(hperforms _ _ _ _ h).shorter ((hes.map _).filter _),
        fun res' heq h401 => absurd h401 (hno res' heq)⟩

section Inversion

variable {α : Type} {v : Vars} {xs : Exchanges}

theorem sends_ret {a : α} (h : Sends E (.ret a : Flow α) v xs) : xs = [] := by
  cases h
  rfl

/-- An access to the variables sends nothing. -/
theorem sends_now {a : Access} {f : a.Out → Async α} (h : Sends E (now a >>= f).run v xs) :
    ∃ x v', Sends E (f x).run v' xs ∨ xs = [] := by
  cases h with
  | pause => exact ⟨(access a v).1, v, Or.inr rfl⟩
  | now h => exact ⟨_, _, Or.inl h⟩

/-- A request, and what is sent after its answer. -/
theorem sends_fetch {req : HttpRequest} {f : HttpResponse → Async α}
    (h : Sends E (fetch req >>= f).run v xs) :
    xs = [] ∨ ∃ es r, Answered E req es r ∧ (xs = [(req, es)] ∨
      ∃ res v' xs', r = .ok res ∧ xs = (req, es) :: xs' ∧ Sends E (f res).run v' xs') := by
  cases h with
  | pause => exact Or.inl rfl
  | fetch hr h =>
      rename_i v' es r xs'
      refine Or.inr ⟨es, r, hr, ?_⟩
      cases r with
      | error e =>
          rw [sends_ret h]
          exact Or.inl rfl
      | ok res => exact Or.inr ⟨res, v', xs', rfl, rfl, h⟩

/-- A body that is read sends nothing. -/
theorem sends_json {res : HttpResponse} {f : Json → Async α}
    (h : Sends E (json res >>= f).run v xs) : xs = [] ∨ ∃ data v', Sends E (f data).run v' xs := by
  cases h with
  | pause => exact Or.inl rfl
  | json h =>
      rename_i v' r
      cases r with
      | error e => exact Or.inl (sends_ret h)
      | ok data => exact Or.inr ⟨data, v', h⟩

theorem sends_property {data : Json} {key : String} {f : Option Json → Async α}
    (h : Sends E (liftM (property data key) >>= f).run v xs) :
    xs = [] ∨ ∃ value, Sends E (f value).run v xs := by
  cases data with
  | null => exact Or.inl (sends_ret h)
  | _ => exact Or.inr ⟨_, h⟩

end Inversion

theorem refresh_writes {r : Except Error HttpResponse} (h : Answered E refreshRequest es r) :
    es = [] := by
  have hroute : ∀ now, handlerOf now refreshRequest = none := fun _ => rfl
  cases h with
  | elsewhere r => rfl
  | handled now _ _ _ _ _ _ _ _ hr =>
      rw [hroute] at hr
      cases hr
  | cutOff now _ _ _ _ _ _ _ _ hr =>
      rw [hroute] at hr
      cases hr

/-- **The requests of `fetchWithAuth`**: one; and when it was answered 401, a refresh and the same
    request again, or less of it. -/
theorem fetchWithAuth_sends {init : HttpRequest} {v : Vars} {xs : Exchanges}
    (h : Sends E (fetchWithAuth init).run v xs) :
    xs = [] ∨ ∃ token es r, Answered E (authorized init token) es r ∧
      (xs = [(authorized init token, es)] ∨
        ∃ res, r = .ok res ∧ res.status = 401 ∧
          (xs = [(authorized init token, es), (refreshRequest, [])] ∨
            ∃ token' es' r', Answered E (authorized init token') es' r' ∧
              xs = [(authorized init token, es), (refreshRequest, []),
                (authorized init token', es')])) := by
  unfold fetchWithAuth at h
  obtain ⟨token, v₁, h₁ | rfl⟩ := sends_now h
  swap
  · exact Or.inl rfl
  rcases sends_fetch h₁ with rfl | ⟨es, r, hanswered, rfl | ⟨res, v₂, xs₂, rfl, rfl, h₂⟩⟩
  · exact Or.inl rfl
  · exact Or.inr ⟨token, es, r, hanswered, Or.inl rfl⟩
  refine Or.inr ⟨token, es, .ok res, hanswered, ?_⟩
  by_cases h401 : res.status = 401
  swap
  · rw [if_neg h401] at h₂
    rw [sends_ret h₂]
    exact Or.inl rfl
  rw [if_pos h401] at h₂
  rcases sends_fetch h₂ with rfl | ⟨es₃, r₃, hrefresh, h₃⟩
  · exact Or.inl rfl
  cases refresh_writes hrefresh
  refine Or.inr ⟨res, rfl, h401, ?_⟩
  rcases h₃ with rfl | ⟨refreshRes, v₃, xs₃, rfl, rfl, h₃⟩
  · exact Or.inl rfl
  by_cases hok : refreshRes.ok = true
  swap
  · rw [if_neg hok] at h₃
    rw [sends_ret h₃]
    exact Or.inl rfl
  rw [if_pos hok] at h₃
  rcases sends_json h₃ with rfl | ⟨data, v₄, h₄⟩
  · exact Or.inl rfl
  rcases sends_property h₄ with rfl | ⟨value, h₅⟩
  · exact Or.inl rfl
  obtain ⟨_, v₅, h₆ | rfl⟩ := sends_now h₅
  swap
  · exact Or.inl rfl
  obtain ⟨token', v₆, h₇ | rfl⟩ := sends_now h₆
  swap
  · exact Or.inl rfl
  rw [← bind_pure (fetch _)] at h₇
  rcases sends_fetch h₇ with rfl | ⟨es', r', hanswered', rfl | ⟨res', v₈, xs₈, rfl, rfl, h₈⟩⟩
  · exact Or.inl rfl
  · exact Or.inr ⟨token', es', r', hanswered', rfl⟩
  · rw [sends_ret h₈]
    exact Or.inr ⟨token', es', .ok res', hanswered', rfl⟩

/-- **A call that writes a post** is sent at most twice, and its writes are those of its operation
    once, or the first of them. -/
theorem writes_once (E : Effect Command Answer σ) (call : PostCall) (v : Vars) (xs : Exchanges)
    (h : Sends E (fetchWithAuth call.request).run v xs) :
    xs.countP (·.1.url == call.request.url) ≤ 2 ∧ call.Performs (writes (xs.flatMap (·.2))) := by
  have hurl : (refreshRequest.url == call.request.url) = false :=
    beq_false_of_ne fun h => (post_url call.request_url).2.1 h.symm
  rcases fetchWithAuth_sends h with
    rfl | ⟨token, es, r, hanswered, rfl | ⟨res, rfl, h401, hxs⟩⟩
  · exact ⟨Nat.zero_le 2, call.performs_nil⟩
  · refine ⟨by simp [authorized], ?_⟩
    simpa using (answered_performs hanswered).1
  · -- the first request was answered 401, so it led to no command
    have hes : es = [] := (answered_performs hanswered).2 res rfl h401
    rcases hxs with rfl | ⟨token', es', r', hanswered', rfl⟩
    · refine ⟨by simp [authorized, hurl], ?_⟩
      simpa [hes] using call.performs_nil
    · refine ⟨by simp [authorized, hurl], ?_⟩
      simpa [hes] using (answered_performs hanswered').1

/-- The request of a user who creates a post, as its handler gets it. -/
def createEvent : Event :=
  ⟨none, (PostCall.createPost "title" "text").request.body,
    some (.obj [("sub", .str "s1"), ("username", .str "alice")])⟩

/-- A request the authorizer answered 401, its refresh, and the request again, which creates the
    post. -/
def retried : Exchanges := [
  (authorized (PostCall.createPost "title" "text").request empty, []),
  (refreshRequest, []),
  (authorized (PostCall.createPost "title" "text").request (some (.str "a")),
    ((createPost "now" createEvent).run Lambda.Db.exec Lambda.Db.empty).1)]

theorem writes_once_retried : Sends (fun op s r s' => (r, s') = Lambda.Db.exec op s)
    (fetchWithAuth (PostCall.createPost "title" "text").request).run Vars.start retried ∧
    (writes (retried.flatMap (·.2))).length = 2 ∧
    retried.countP (·.1.url == (PostCall.createPost "title" "text").request.url) ≤ 2 ∧
    (PostCall.createPost "title" "text").Performs (writes (retried.flatMap (·.2))) := by
  have hexec := exec_run (E := fun op s r s' => (r, s') = Lambda.Db.exec op s) (f := Lambda.Db.exec)
    (fun op s => rfl) (createPost "now" createEvent) Lambda.Db.empty
  have hretry : Answered (fun op s r s' => (r, s') = Lambda.Db.exec op s)
      (authorized (PostCall.createPost "title" "text").request (some (.str "a")))
      ((createPost "now" createEvent).run Lambda.Db.exec Lambda.Db.empty).1 _ :=
    .handled "now" (createPost "now") none createEvent.claims _ _ _ _ (.json .null) rfl hexec
  have hsends : Sends (fun op s r s' => (r, s') = Lambda.Db.exec op s)
      (fetchWithAuth (PostCall.createPost "title" "text").request).run Vars.start retried := by
    refine .now (.fetch (.elsewhere (.ok ⟨"/posts", 401, none, .json .null⟩))
      (?_ : Sends _ _ Vars.start _))
    refine .fetch (.elsewhere (.ok ⟨"/auth/refresh", 200, none, .json .null⟩))
      (?_ : Sends _ _ Vars.start _)
    refine .json (r := .ok (.obj [("accessToken", .str "a")])) (?_ : Sends _ _ Vars.start _)
    exact .now (.now (.fetch hretry (.pause _ Vars.start)))
  exact ⟨hsends, by decide +kernel,
    writes_once _ (.createPost "title" "text") Vars.start retried hsends⟩

end Frontend
