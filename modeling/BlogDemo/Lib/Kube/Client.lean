/-
  File:      BlogDemo/Lib/Kube/Client.lean
  Subject:   `controllerutil.CreateOrUpdate` OF A CLIENT: read the object, let a function change it,
             create it when it was not there, update it when the change made a difference.

  * `Client` -- the calls a client makes for one kind of object;
  * `createOrUpdate` -- the steps of the client library, over any such client;
  * `createOrUpdate_issues` -- whatever the calls answer, what is written has the key that was read.
-/
import BlogDemo.Lib.Kube.Meta
import BlogDemo.Lib.Prog

namespace Kube

open Atomic

variable {Op : Type} {Res : Op → Type} {α : Type} {key : α → Key}

/-- **A client for objects of one kind**; what it reads has the key it asked for. -/
structure Client (Op : Type) (Res : Op → Type) (α : Type) (key : α → Key) where
  get : (k : Key) → Prog Op Res (Except ApiError { obj : α // key obj = k })
  create : α → Prog Op Res (Except ApiError Unit)
  update : α → Prog Op Res (Except ApiError Unit)

inductive OperationResult where
  | none
  | created
  | updated
  deriving DecidableEq, Repr

/-- What the caller's function makes of the object, which must keep its key. -/
def mutateWith (key : α → Key) (f : α → Except Err α) (k : Key) (obj : α) : Except Err α :=
  match f obj with
  | .error e => .error e
  | .ok obj' => if key obj' = k then .ok obj' else .error .keyChanged

theorem mutateWith_key {f : α → Except Err α} {k : Key} {obj obj' : α}
    (h : mutateWith key f k obj = .ok obj') : key obj' = k := by
  unfold mutateWith at h
  cases hf : f obj with
  | error e => rw [hf] at h; cases h
  | ok obj'' =>
      simp only [hf] at h
      split at h
      · cases h
        assumption
      · cases h

section CreateOrUpdate

variable [DecidableEq α] {client : Client Op Res α key} {f : α → Except Err α} {k : Key} {obj : α}

/-- What `CreateOrUpdate` does with the object `obj` of key `k`, once it was read. -/
def createOrUpdateRead (client : Client Op Res α key) (f : α → Except Err α) (k : Key) (obj : α) :
    Except ApiError { obj : α // key obj = k } → Prog Op Res (Except Err OperationResult)
  | .error .notFound =>
    match mutateWith key f k obj with
    | .error e => return .error e
    | .ok obj' => do
      match ← client.create obj' with
      | .error e => return .error (.api e)
      | .ok _ => return .ok .created
  | .error e => return .error (.api e)
  | .ok existing =>
    match mutateWith key f k existing.1 with
    | .error e => return .error e
    | .ok obj' => do
      if obj' = existing.1 then return .ok .none
      else
        match ← client.update obj' with
        | .error e => return .error (.api e)
        | .ok _ => return .ok .updated

/-- `controllerutil.CreateOrUpdate` -/
def createOrUpdate (client : Client Op Res α key) (obj : α) (f : α → Except Err α) :
    Prog Op Res (Except Err OperationResult) := do
  createOrUpdateRead client f (key obj) obj (← client.get (key obj))

/-- **What it writes has the key of the object**, and it reads no other. -/
theorem createOrUpdate_issues {P : Op → Prop} (hget : (client.get (key obj)).Issues P)
    (hcreate : ∀ obj', key obj' = key obj → (client.create obj').Issues P)
    (hupdate : ∀ obj', key obj' = key obj → (client.update obj').Issues P) :
    (createOrUpdate client obj f).Issues P := by
  refine hget.bind fun r => ?_
  match r with
  | .error .notFound =>
      unfold createOrUpdateRead
      cases hm : mutateWith key f (key obj) obj with
      | error e => exact Prog.issues_ret _
      | ok obj' =>
          refine (hcreate obj' (mutateWith_key hm)).bind fun r => ?_
          cases r <;> exact Prog.issues_ret _
  | .error .alreadyExists => exact Prog.issues_ret _
  | .error .invalid => exact Prog.issues_ret _
  | .error (.failed m) => exact Prog.issues_ret _
  | .ok existing =>
      unfold createOrUpdateRead
      cases hm : mutateWith key f (key obj) existing.1 with
      | error e => simp [hm]
      | ok obj' =>
          simp only [hm]
          split
          · exact Prog.issues_ret _
          · refine (hupdate obj' (mutateWith_key hm)).bind fun r => ?_
            cases r <;> exact Prog.issues_ret _

end CreateOrUpdate

end Kube
