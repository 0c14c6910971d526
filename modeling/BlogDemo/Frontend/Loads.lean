/-
  File:      BlogDemo/Frontend/Loads.lean
  Subject:   WHAT THE PAGES SHOW (frontend/src/App.tsx): Home and PostDetail, their loads, and the calls
             that create and update posts. Nothing in a load asks whether a later one was started.

  A load writes whatever its response says, also one that failed; where the page cannot be rendered
  with it, React unmounts the page. An update starts a load of the post that it was sent for.

  * `Home.overwrites`, `PostDetail.overwrites` -- what the loads overwrite;
  * `SendsOwn` -- an update is sent to the post whose text it has;
  * **`shows_latest`** -- in a run that reads no body too late, both pages show what the last load
    read, and updates are sent so;
    `late_not_latest` -- runs that do read one too late.
-/
import BlogDemo.Frontend.App
import BlogDemo.Lib.Components

namespace Pages

open Js Atomic EventLoop Runs Components Gateway
open Frontend (property jsonHeaders)

/-- A request, and what it is sent with. What `fetchWithAuth` does before it answers touches none of
    the variables of a page. -/
inductive Request where
  | fetch (url : String)
  | fetchWithAuth (init : HttpRequest)

/-- `JSON.stringify` of an object with these properties. -/
def stringify (fields : List (String × Option Json)) : Text :=
  .json (Auth.object fields)

/-- React can render the value as a child. -/
abbrev Child := Option Json → Bool

/-! ## 1. Home -/

namespace Home

structure Vars where
  /-- Of the context. -/
  user : String
  posts : Json
  title : String
  content : String

/-- What `createPost` closes over. -/
structure Form where
  title : String
  content : String

inductive Input where
  | mount
  | title (text : String)
  | content (text : String)
  | user (name : String)

abbrev Code := Async Vars Unit Request HttpResponse Unit

def setPosts (json : Json) : Code := write fun v => { v with posts := json }

def loadPosts : Code := load (.fetch "/posts") setPosts

def createRequest (form : Form) : HttpRequest where
  url := "/posts"
  method := "POST"
  headers := jsonHeaders
  credentials := false
  body := some (stringify [("title", some (.str form.title)), ("content", some (.str form.content))])

def created : Code := do
  write fun v => { v with title := "" }
  write fun v => { v with content := "" }
  start ()

def createPost (form : Form) : Code :=
  submit HttpResponse.ok (.fetchWithAuth (createRequest form)) created

/-- An element of the list. -/
def listItem (child : Child) : Json → Bool
  | .null => false
  | p => child (p.get? "title") && child (p.get? "userName")

/-- `posts.map` -/
def renders (child : Child) : Json → Bool
  | .arr posts => posts.all (listItem child)
  | _ => false

def component (child : Child) : Component Vars Unit Form Input Request HttpResponse where
  load _ := loadPosts
  submit := createPost
  input
    | .mount, v => (v, [()])
    | .title text, v => ({ v with title := text }, [])
    | .content text, v => ({ v with content := text }, [])
    | .user name, v => ({ v with user := name }, [])
  button v := if v.user = "" then none else some ⟨v.title, v.content⟩
  renders v := renders child v.posts

def start (user : String) : Vars := ⟨user, .arr [], "", ""⟩

/-- **A load overwrites the posts.** -/
def overwrites (child : Child) : Overwrites (component child) where
  ok := HttpResponse.ok
  request _ := .fetch "/posts"
  body := setPosts
  sent form := .fetchWithAuth (createRequest form)
  done _ := created
  param _ := ()
  about _ := ()
  fits := renders child
  Shows j v := v.posts = j
  load_eq _ := rfl
  submit_eq _ := rfl
  overwrites j v := ⟨{ v with posts := j }, .ok (), rfl, rfl, rfl, fun _ => rfl⟩
  reloads _ v := ⟨{ v with title := "", content := "" }, .ok (), rfl, rfl, rfl⟩
  inputs i v := by
    cases i with
    | mount => exact ⟨rfl, .inl rfl⟩
    | _ => exact ⟨rfl, .inr ⟨rfl, rfl, fun _ h => h⟩⟩

end Home

/-! ## 2. PostDetail -/

namespace PostDetail

/-- A field of the form. -/
structure Field where
  value : Option Json
  /-- The value was typed after it was last set by a load. -/
  typed : Bool

structure Vars where
  /-- Of the context. -/
  user : String
  id : String
  post : Json
  editTitle : Field
  editContent : Field

/-- What `updatePost` closes over. -/
structure Form where
  id : String
  title : Option Json
  content : Option Json

inductive Input where
  | mount
  | id (id : String)
  | title (text : String)
  | content (text : String)
  | user (name : String)

abbrev Code := Async Vars String Request HttpResponse Unit

def setPost (json : Json) : Code := write fun v => { v with post := json }

def setEditTitle (value : Option Json) : Code := write fun v => { v with editTitle := ⟨value, false⟩ }

def setEditContent (value : Option Json) : Code :=
  write fun v => { v with editContent := ⟨value, false⟩ }

def loaded (json : Json) : Code := do
  setPost json
  setEditTitle (← property json "title")
  setEditContent (← property json "content")

def load (id : String) : Code := Components.load (.fetch ("/posts/" ++ id)) loaded

def updateRequest (form : Form) : HttpRequest where
  url := "/posts/" ++ form.id
  method := "PUT"
  headers := jsonHeaders
  credentials := false
  body := some (stringify [("title", form.title), ("content", form.content)])

def updatePost (form : Form) : Code :=
  submit HttpResponse.ok (.fetchWithAuth (updateRequest form)) (start form.id)

/-- `if (!post)`, else the texts of the post. -/
def renders (child : Child) (post : Json) : Bool :=
  !truthy (some post) ||
    child (post.get? "title") && child (post.get? "content") && child (post.get? "userName")

/-- The effect runs again where the id is another one. -/
def component (child : Child) : Component Vars String Form Input Request HttpResponse where
  load := load
  submit := updatePost
  input
    | .mount, v => (v, [v.id])
    | .id id, v => if id = v.id then (v, []) else ({ v with id := id }, [id])
    | .title text, v => ({ v with editTitle := ⟨some (.str text), true⟩ }, [])
    | .content text, v => ({ v with editContent := ⟨some (.str text), true⟩ }, [])
    | .user name, v => ({ v with user := name }, [])
  button v :=
    if truthy (some v.post) && strictEq (some (.str v.user)) (v.post.get? "userName") then
      some ⟨v.id, v.editTitle.value, v.editContent.value⟩
    else none
  renders v := renders child v.post

def start (user id : String) : Vars :=
  ⟨user, id, .null, ⟨some (.str ""), false⟩, ⟨some (.str ""), false⟩⟩

/-- The post and the fields are those of the body, as far as nothing was typed. -/
def Shows (j : Json) (v : Vars) : Prop :=
  v.post = j ∧ (v.editTitle.typed = false → v.editTitle.value = j.get? "title") ∧
    (v.editContent.typed = false → v.editContent.value = j.get? "content")

/-- **A load overwrites the post and the fields**; of `null` the post alone, and it throws. -/
def overwrites (child : Child) : Overwrites (component child) where
  ok := HttpResponse.ok
  request id := .fetch ("/posts/" ++ id)
  body := loaded
  sent form := .fetchWithAuth (updateRequest form)
  done form := Components.start form.id
  param := Vars.id
  about := Form.id
  fits := renders child
  Shows := Shows
  load_eq _ := rfl
  submit_eq _ := rfl
  overwrites j v := by
    have hwritten : j ≠ .null → block access (loaded j).run (v, []) =
        (({ v with post := j, editTitle := ⟨j.get? "title", false⟩,
                   editContent := ⟨j.get? "content", false⟩ }, []), .ended (.ok ())) := by
      intro hj
      cases j with
      | null => exact absurd rfl hj
      | _ => rfl
    by_cases hj : j = .null
    · rw [hj]
      exact ⟨{ v with post := .null }, _, rfl, rfl, rfl, nofun⟩
    · exact ⟨_, _, hwritten hj, rfl, rfl, fun _ => ⟨rfl, fun _ => rfl, fun _ => rfl⟩⟩
  reloads form v := ⟨v, .ok (), rfl, rfl, rfl⟩
  inputs i v := by
    cases i with
    | mount => exact ⟨rfl, .inl rfl⟩
    | id id =>
        by_cases hid : id = v.id
        · have hinput : (component child).input (.id id) v = (v, []) := if_pos hid
          rw [hinput]
          exact ⟨rfl, .inr ⟨rfl, rfl, fun _ h => h⟩⟩
        · have hinput : (component child).input (.id id) v = ({ v with id := id }, [id]) :=
            if_neg hid
          rw [hinput]
          exact ⟨rfl, .inl rfl⟩
    | title text => exact ⟨rfl, .inr ⟨rfl, rfl, fun j h => ⟨h.1, nofun, h.2.2⟩⟩⟩
    | content text => exact ⟨rfl, .inr ⟨rfl, rfl, fun j h => ⟨h.1, h.2.1, nofun⟩⟩⟩
    | user name => exact ⟨rfl, .inr ⟨rfl, rfl, fun j h => h⟩⟩

/-- The request that a write waits for. -/
def sent (x : Write Vars String Form Request HttpResponse) : Option Request :=
  match x.left with
  | .waiting (.fetch req) _ => some req
  | _ => none

/-- What a field shows, when a load set it to `value`. -/
def Field.text (field : Field) (value : Option Json) : Option Json :=
  if field.typed then field.value else value

/-- **An update is sent to the post whose text it has**, but for what was typed. -/
def SendsOwn (child : Child) (w : World Vars String Form Request HttpResponse) : Prop :=
  (∀ l ∈ w.loads, l.waits = false) → ∀ l, w.last = some l → l.resolved = true →
    ∀ w', w.step (component child) .press = some w' → ∃ j x, l.read = some j ∧
      w'.writes = w.writes ++ [x] ∧ sent x = some (.fetchWithAuth (updateRequest ⟨l.param,
        w.vars.editTitle.text (j.get? "title"), w.vars.editContent.text (j.get? "content")⟩))

theorem Field.text_eq {field : Field} {value : Option Json}
    (h : field.typed = false → field.value = value) : field.text value = field.value := by
  rw [Field.text]
  split
  · rfl
  · exact (h (Bool.not_eq_true _ ▸ ‹_›)).symm

/-- The update is sent with what is shown. -/
theorem sendsOwn_of_latest {child : Child} {w : World Vars String Form Request HttpResponse}
    (h : Latest (overwrites child) w) : SendsOwn child w := by
  intro hidle l hl hresolved w' hs
  obtain ⟨j, hread, _, ⟨_, htitle, hcontent⟩, hparam⟩ := h hidle l hl hresolved
  cases step_view hs with
  | press form hm hbutton =>
      have hform : form = ⟨w.vars.id, w.vars.editTitle.value, w.vars.editContent.value⟩ := by
        have hsome : (component child).button w.vars =
            if truthy (some w.vars.post) &&
                strictEq (some (.str w.vars.user)) (w.vars.post.get? "userName") then
              some ⟨w.vars.id, w.vars.editTitle.value, w.vars.editContent.value⟩
            else none := rfl
        rw [hsome] at hbutton
        split at hbutton
        · exact (Option.some.inj hbutton).symm
        · cases hbutton
      refine ⟨j, _, hread, rfl, ?_⟩
      rw [Field.text_eq htitle, Field.text_eq hcontent, hparam, hform]
      rfl

end PostDetail

/-! ## 3. Runs -/

/-- **In every run that reads no body too late**, both pages show what the last load read, and an
    update is sent to the post whose text it has. -/
theorem shows_latest (child : Child) :
    (∀ user w, Run (World.step (Home.component child))
        (fun w a => timely (Home.overwrites child) w a = true) (World.init (Home.start user)) w →
      Latest (Home.overwrites child) w) ∧
    (∀ user id w, Run (World.step (PostDetail.component child))
        (fun w a => timely (PostDetail.overwrites child) w a = true)
        (World.init (PostDetail.start user id)) w →
      Latest (PostDetail.overwrites child) w ∧ PostDetail.SendsOwn child w) := by
  constructor
  · intro user w h
    exact run_latest rfl h
  · intro user id w h
    have hlatest : Latest (PostDetail.overwrites child) w := run_latest rfl h
    exact ⟨hlatest, PostDetail.sendsOwn_of_latest hlatest⟩

section Late

/-- A child that is no object. -/
def plain : Child
  | some (.obj _) => false
  | _ => true

def postOf (id text : String) : Json := .obj [("id", .str id), ("title", .str text),
  ("content", .str text), ("userName", .str "alice")]

def responseOf (url : String) (status : Nat) (body : Json) : HttpResponse :=
  ⟨url, status, none, .json body⟩

def onePost : Json := .arr [postOf "1" "first"]

def twoPosts : Json := .arr [postOf "2" "second", postOf "1" "first"]

/-- Alice opens the page and creates a post; both loads are answered. -/
def createSecond : List (Action Home.Input HttpResponse) := [
  .input .mount, .input (.title "second"), .input (.content "second"), .press,
  .respond 0 (.ok (responseOf "/posts" 200 onePost)),
  .answer 0 (.ok (responseOf "/posts" 201 (postOf "2" "second"))),
  .respond 1 (.ok (responseOf "/posts" 200 twoPosts))]

/-- She opens the first post and goes on to the second; both loads are answered. -/
def openSecond : List (Action PostDetail.Input HttpResponse) := [
  .input .mount, .input (.id "2"),
  .respond 0 (.ok (responseOf "/posts/1" 200 (postOf "1" "first"))),
  .respond 1 (.ok (responseOf "/posts/2" 200 (postOf "2" "second")))]

/-- She updates the first post, and goes on to the second before the update is answered. -/
def updateFirst : List (Action PostDetail.Input HttpResponse) := [
  .input .mount, .respond 0 (.ok (responseOf "/posts/1" 200 (postOf "1" "first"))),
  .read 0 (.ok (postOf "1" "first")), .press, .input (.id "2"),
  .respond 1 (.ok (responseOf "/posts/2" 200 (postOf "2" "second"))),
  .read 1 (.ok (postOf "2" "second")),
  .answer 0 (.ok (responseOf "/posts/1" 200 (postOf "1" "first"))),
  .respond 2 (.ok (responseOf "/posts/1" 200 (postOf "1" "first"))),
  .read 2 (.ok (postOf "1" "first"))]

variable {V P S Q R : Type} [DecidableEq P]

/-- No load is under way, and the last one, for `p`, read `j`. -/
def settled (w : World V P S Q R) (p : P) (j : Json) : Bool :=
  w.loads.all (fun l => !l.waits) &&
    w.last.any fun l => l.resolved && l.read == some j && l.param == p

theorem last_of_settled {w : World V P S Q R} {p : P} {j : Json} (h : settled w p j = true) :
    (∀ l ∈ w.loads, l.waits = false) ∧
      ∃ l, w.last = some l ∧ l.resolved = true ∧ l.read = some j ∧ l.param = p := by
  obtain ⟨hidle, hlast⟩ := Bool.and_eq_true_iff.mp h
  obtain ⟨l, hl, hread⟩ := (Option.any_eq_true _ _).mp hlast
  simp only [Bool.and_eq_true, beq_iff_eq] at hread
  refine ⟨fun l' hl' => ?_, l, hl, hread.1.1, hread.1.2, hread.2⟩
  simpa using List.all_eq_true.mp hidle l' hl'

/-- Read in order, the second list is shown, and so is the second post. -/
theorem shows_latest_second :
    (∃ w, Run (World.step (Home.component plain))
        (fun w a => timely (Home.overwrites plain) w a = true) (World.init (Home.start "alice")) w ∧
      w.vars.posts = twoPosts ∧ Latest (Home.overwrites plain) w) ∧
    (∃ w, Run (World.step (PostDetail.component plain))
        (fun w a => timely (PostDetail.overwrites plain) w a = true)
        (World.init (PostDetail.start "alice" "1")) w ∧
      w.vars.post = postOf "2" "second" ∧ Latest (PostDetail.overwrites plain) w ∧
        PostDetail.SendsOwn plain w) := by
  constructor
  · have hrun : (script (World.step (Home.component plain)) (timely (Home.overwrites plain))
        (createSecond ++ [.read 0 (.ok onePost), .read 1 (.ok twoPosts)])
        (World.init (Home.start "alice"))).any (fun w => w.vars.posts = twoPosts) = true := by
      decide +kernel
    obtain ⟨w, hw, hposts⟩ := (Option.any_eq_true _ _).mp hrun
    have hreach := script_run .start hw
    exact ⟨w, hreach, of_decide_eq_true hposts, (shows_latest plain).1 "alice" w hreach⟩
  · have hrun : (script (World.step (PostDetail.component plain))
        (timely (PostDetail.overwrites plain))
        (openSecond ++ [.read 0 (.ok (postOf "1" "first")), .read 1 (.ok (postOf "2" "second"))])
        (World.init (PostDetail.start "alice" "1"))).any
        (fun w => w.vars.post = postOf "2" "second") = true := by
      decide +kernel
    obtain ⟨w, hw, hpost⟩ := (Option.any_eq_true _ _).mp hrun
    have hreach := script_run .start hw
    exact ⟨w, hreach, of_decide_eq_true hpost, (shows_latest plain).2 "alice" "1" w hreach⟩

/-- The title that a write sends. -/
def sentTitle (x : Write PostDetail.Vars String PostDetail.Form Request HttpResponse) : Option Json :=
  match PostDetail.sent x with
  | some (.fetchWithAuth ⟨_, _, _, _, some (.json body)⟩) => body.get? "title"
  | _ => none

/-- The lists read in the other order: the older one is shown. -/
theorem late_list : ¬ ∀ user w,
    Run (World.step (Home.component plain)) free (World.init (Home.start user)) w →
      Latest (Home.overwrites plain) w := by
  intro h
  have hrun : (script (World.step (Home.component plain)) (fun _ _ => true)
      (createSecond ++ [.read 1 (.ok twoPosts), .read 0 (.ok onePost)])
      (World.init (Home.start "alice"))).any
      (fun w => settled w () twoPosts && w.vars.posts = onePost) = true := by
    decide +kernel
  obtain ⟨w, hw, hend⟩ := (Option.any_eq_true _ _).mp hrun
  obtain ⟨hsettled, hposts⟩ := Bool.and_eq_true_iff.mp hend
  obtain ⟨hidle, l, hl, hresolved, hread, _⟩ := last_of_settled hsettled
  obtain ⟨j, hj, _, hshows, _⟩ := h "alice" w (script_free hw) hidle l hl hresolved
  rw [hread] at hj
  cases hj
  have hstale : twoPosts = onePost := hshows.symm.trans (of_decide_eq_true hposts)
  exact absurd hstale (by decide)

/-- The posts read in the other order: an update sends the first post's title to the second. -/
theorem late_post : ¬ ∀ user id w,
    Run (World.step (PostDetail.component plain)) free (World.init (PostDetail.start user id)) w →
      PostDetail.SendsOwn plain w := by
  intro h
  have hrun : (script (World.step (PostDetail.component plain)) (fun _ _ => true)
      (openSecond ++ [.read 1 (.ok (postOf "2" "second")), .read 0 (.ok (postOf "1" "first"))])
      (World.init (PostDetail.start "alice" "1"))).any
      (fun w => settled w "2" (postOf "2" "second") && (!w.vars.editTitle.typed &&
        (w.step (PostDetail.component plain) .press).any fun w' =>
          w'.writes.getLast?.bind sentTitle = some (.str "first"))) = true := by
    decide +kernel
  obtain ⟨w, hw, hend⟩ := (Option.any_eq_true _ _).mp hrun
  obtain ⟨hsettled, hend⟩ := Bool.and_eq_true_iff.mp hend
  obtain ⟨htyped, hpress⟩ := Bool.and_eq_true_iff.mp hend
  obtain ⟨hidle, l, hl, hresolved, hread, hparam⟩ := last_of_settled hsettled
  obtain ⟨w', hs, htitle⟩ := (Option.any_eq_true _ _).mp hpress
  obtain ⟨j, x, hj, hwrites, hsent⟩ := h "alice" "1" w (script_free hw) hidle l hl hresolved w' hs
  rw [hread] at hj
  cases hj
  have huntyped : w.vars.editTitle.typed = false := by simpa using htyped
  have hown : sentTitle x = some (.str "second") := by
    rw [sentTitle, hsent, PostDetail.Field.text, huntyped]
    rfl
  have hfirst := of_decide_eq_true htitle
  rw [hwrites, List.getLast?_concat, Option.bind_some, hown] at hfirst
  exact absurd hfirst (by decide)

/-- The update answered after the id has changed: the first post is loaded again. -/
theorem late_update : ¬ ∀ user id w,
    Run (World.step (PostDetail.component plain)) free (World.init (PostDetail.start user id)) w →
      Latest (PostDetail.overwrites plain) w := by
  intro h
  have hrun : (script (World.step (PostDetail.component plain)) (fun _ _ => true) updateFirst
      (World.init (PostDetail.start "alice" "1"))).any
      (fun w => settled w "1" (postOf "1" "first") && w.vars.id = "2") = true := by
    decide +kernel
  obtain ⟨w, hw, hend⟩ := (Option.any_eq_true _ _).mp hrun
  obtain ⟨hsettled, hid⟩ := Bool.and_eq_true_iff.mp hend
  obtain ⟨hidle, l, hl, hresolved, _, hparam⟩ := last_of_settled hsettled
  obtain ⟨_, _, _, _, hown⟩ := h "alice" "1" w (script_free hw) hidle l hl hresolved
  have hids : "1" = "2" := hparam.symm.trans (hown.trans (of_decide_eq_true hid))
  exact absurd hids (by decide)

/-- **What is answered too late** is shown all the same: lists, posts, and updates. -/
theorem late_not_latest :
    (¬ ∀ user w, Run (World.step (Home.component plain)) free (World.init (Home.start user)) w →
      Latest (Home.overwrites plain) w) ∧
    (¬ ∀ user id w, Run (World.step (PostDetail.component plain)) free
        (World.init (PostDetail.start user id)) w → PostDetail.SendsOwn plain w) ∧
    (¬ ∀ user id w, Run (World.step (PostDetail.component plain)) free
        (World.init (PostDetail.start user id)) w → Latest (PostDetail.overwrites plain) w) :=
  ⟨late_list, late_post, late_update⟩

end Late

end Pages
