/-
  File:      BlogDemo/Msa/Logout.lean
  Subject:   A LOGOUT ENDS THE SESSION IN BOTH SERVICES (auth.service.ts, logout): `session.destroy` removes
             it from the store that the auth service and the board share.

  Requests that have the session in memory go on as they are. One of them can bring it back: a login that
  was under way on it, when it succeeds and saves.

  * `leaves_of_login` -- every request but a login leaves its session, or destroys it;
  * **`logout_ends`** -- after a logout with no login under way on the session, it is not stored in any
    world of any run, and neither service gives it to a request again;
    `logout_alice` -- Alice logs in and out, and asks for her posts with the cookie she still has.
-/
import BlogDemo.Msa.Sessions

namespace Msa

open Js Mongoose ExpressSession Runs

variable {B : Bcrypt.Package} {Q : Query} {ι S : Type} [DecidableEq ι] [DecidableEq S]

/-- **Every request but a login leaves its session.** -/
theorem leaves_of_login {req : Request} (h : ∀ body, req ≠ .login body) :
    Leaves (sessions B Q) req := by
  intro data rest d rest' hh
  cases req with
  | login body => exact absurd rfl (h body)
  | logout fails =>
      cases fails with
      | true =>
          cases hh
          rfl
      | false => cases hh
  | register oid salt body =>
      cases hh
      rfl
  | me =>
      cases hh
      rfl
  | board route =>
      cases hh
      rfl

/-- **No login is under way on the session**: none has it in memory, and none is about to save it. -/
structure NoLogin (s : S) (w : Sessions ι S) : Prop where
  loaded : ∀ j body fresh session, w.tasks j ≠ .loaded (.login body) s fresh session
  saved : ∀ j fresh session cookie, w.tasks j ≠ .handled s fresh (some session) cookie

/-- The world after a logout that destroys the session. -/
theorem logout_step {w w' : Sessions ι S} {i : ι} {s : S} {fresh : Bool} {session : Session}
    (ht : w.tasks i = .loaded (.logout false) s fresh session)
    (hs : w.step (sessions B Q) (.handle i) = some w') :
    w' = (w.write s none).put i (.handled s fresh none false) := by
  have hhandle : (sessions B Q).handle (.logout false) session w.rest = (none, w.rest) := rfl
  simp only [World.step, ht, hhandle, Option.some.injEq] at hs
  exact hs.symm

/-- **A logout is final**: the session is not stored in any world of any run after it, and whoever still
    presents its id, to either service, is given another session. -/
theorem logout_ends {C : Sessions ι S → Action ι Request S → Prop} {users : List User}
    {w w₁ w₂ : Sessions ι S} {i : ι} {s : S} {fresh : Bool} {session : Session}
    (h₁ : Run (World.step (sessions B Q)) C (World.start users) w₁)
    (ht : w₁.tasks i = .loaded (.logout false) s fresh session)
    (hlogout : w₁.step (sessions B Q) (.handle i) = some w₂) (hno : NoLogin s w₁)
    (h₂ : Run (World.step (sessions B Q)) free w₂ w) :
    w.store s = none ∧
      ∀ j req fresh session, w.tasks j = .loaded req s fresh session →
        w₁.tasks j = .loaded req s fresh session := by
  have hsane : Sane w₁ := run_sane h₁ (start_sane users)
  obtain rfl := logout_step ht hlogout
  have hover : Over (sessions B Q) s (w₁.write s none) := by
    refine ⟨hsane.used i s (by rw [ht]; rfl), Function.update_self .., hno.saved, ?_⟩
    intro j req fresh session hj
    refine leaves_of_login fun body heq => ?_
    subst heq
    exact hno.loaded j body fresh session hj
  have hnew₁ : NoNew s w₁ (w₁.write s none) := fun _ _ _ _ h => h
  obtain ⟨hover₂, hnew₂⟩ :=
    hover.put hnew₁ (i := i) (t := .handled s fresh none false) nofun nofun
  obtain ⟨hw, hnew⟩ := run_over h₂ hover₂
  exact ⟨hw.gone, fun j req fresh session hj => hnew₂ _ _ _ _ (hnew _ _ _ _ hj)⟩

/-! ## The cookie that is left -/

/-- The task is no login on the session `s`. -/
def noLogin (s : S) : ExpressSession.Task Request Session S → Bool
  | .loaded (.login _) sid _ _ => sid ≠ s
  | .handled sid _ (some _) _ => sid ≠ s
  | _ => true

omit [DecidableEq ι] in
theorem noLogin_all {s : S} {w : Sessions ι S} (h : ∀ i, noLogin s (w.tasks i) = true) :
    NoLogin s w := by
  refine ⟨fun j body fresh session hj => ?_, fun j fresh session cookie hj => ?_⟩
  all_goals
    have hj' := h j
    rw [hj] at hj'
    exact of_decide_eq_true hj' rfl

/-- Alice logs in, and then sends a logout with the cookie she was sent. -/
def aliceOut (i j : Fin 3) : List (Action (Fin 3) Request Nat) :=
  logIn i "alice" "apple" none 1 ++ [.arrive j (.logout false) (some 1) 2]

/-- Her next request still bears the cookie. -/
def aliceBack (i : Fin 3) : List (Action (Fin 3) Request Nat) :=
  [.arrive i (.board .findAll) (some 1) 3]

/-- The logout `i` of Alice is under way, and nothing else is on her session. -/
def loggingOut (i : Fin 3) (w : Sessions (Fin 3) Nat) : Bool :=
  (match w.tasks i with
  | .loaded (.logout false) 1 _ _ => true
  | _ => false) && (List.finRange 3).all fun j => noLogin 1 (w.tasks j)

def aliceScript (as : List (Action (Fin 3) Request Nat)) (w : Sessions (Fin 3) Nat) :
    Option (Sessions (Fin 3) Nat) :=
  script (World.step (sessions Bcrypt.keyed stringOrNe)) (fun _ _ => true) as w

/-- Alice logs out, and asks for her posts with the cookie she still has: no session is found. -/
theorem logout_alice : ∃ w₁ w₂ w, aliceScript (aliceOut 0 1) (World.start aliceAndBob) = some w₁ ∧
    w₁.step (sessions Bcrypt.keyed stringOrNe) (.handle 1) = some w₂ ∧
    aliceScript (aliceBack 2) w₂ = some w ∧ w.store 1 = none := by
  have hrun : ((aliceScript (aliceOut 0 1) (World.start aliceAndBob)).any fun w₁ =>
      loggingOut 1 w₁ && ((w₁.step (sessions Bcrypt.keyed stringOrNe) (.handle 1)).any fun w₂ =>
        (aliceScript (aliceBack 2) w₂).isSome)) = true := by
    decide +kernel
  obtain ⟨w₁, h₁, hrest⟩ := (Option.any_eq_true _ _).mp hrun
  simp only [Bool.and_eq_true, loggingOut] at hrest
  obtain ⟨⟨hout, hnone⟩, hrest⟩ := hrest
  obtain ⟨w₂, hstep, hback⟩ := (Option.any_eq_true _ _).mp hrest
  obtain ⟨w, hw⟩ := Option.isSome_iff_exists.mp hback
  have hno : NoLogin 1 w₁ := noLogin_all fun i => List.all_eq_true.mp hnone i (List.mem_finRange i)
  split at hout
  · rename_i fresh session ht
    exact ⟨w₁, w₂, w, h₁, hstep, hw,
      (logout_ends (script_free h₁) ht hstep hno (script_free hw)).1⟩
  · cases hout

end Msa
