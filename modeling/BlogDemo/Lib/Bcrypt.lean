/-
  File:      BlogDemo/Lib/Bcrypt.lean
  Subject:   BCRYPT: which passwords a hash is one of. The hash is made with the password as a Blowfish
             key, which is its octets, at most 72, and a NUL, over and over up to 72 octets.

  * `key` -- that key;
  * `Package` -- `hash` and `compare`: a password is accepted when its key is that of the hashed one;
    `keyed` -- a hash that shows the key.
-/
import BlogDemo.Lib.Js
import Mathlib.Data.List.Basic

namespace Bcrypt

open Js

def octets (password : String) : List UInt8 := password.toList.flatMap String.utf8EncodeChar

/-- **The key a password is hashed with.** -/
def key (password : String) : List UInt8 :=
  ((List.replicate 72 ((octets password).take 72 ++ [0])).flatten).take 72

/-- **`bcrypt.hash` and `bcrypt.compare`**, for strings; anything else is rejected. -/
structure Package where
  hash : (salt password : String) → String
  compare : (password hash : String) → Bool
  compare_hash : ∀ salt p q, compare q (hash salt p) = decide (key q = key p)
  rejection : Error

def Package.hashAny (B : Package) (salt : String) : Option Json → Except Error String
  | some (.str p) => .ok (B.hash salt p)
  | _ => .error B.rejection

def Package.compareAny (B : Package) (password : Option Json) (hash : String) : Except Error Bool :=
  match password with
  | some (.str p) => .ok (B.compare p hash)
  | _ => .error B.rejection

/-- The key, octet by octet. -/
def shown (password : String) : String :=
  String.ofList ((key password).map fun b => Char.ofNat b.toNat)

theorem shown_inj {p q : String} : shown p = shown q ↔ key p = key q := by
  have hinj : Function.Injective fun b : UInt8 => Char.ofNat b.toNat := by
    intro a b hab
    have hvalid : ∀ c : UInt8, c.toNat.isValidChar := fun c => by
      have hc : c.toNat < 256 := c.toNat_lt
      exact Or.inl (by omega)
    have hnat : ∀ c : UInt8, (Char.ofNat c.toNat).toNat = c.toNat := fun c => by
      rw [Char.ofNat, dif_pos (hvalid c)]
      rfl
    have hnats := congrArg Char.toNat hab
    rw [hnat, hnat] at hnats
    exact UInt8.toNat_inj.mp hnats
  constructor
  · intro h
    have hmap := congrArg String.toList h
    rw [shown, shown, String.toList_ofList, String.toList_ofList] at hmap
    exact List.map_injective_iff.mpr hinj hmap
  · intro h
    rw [shown, shown, h]

/-- A hash without salt or secrecy. -/
def keyed : Package where
  hash _ password := shown password
  compare password hash := shown password == hash
  compare_hash _ p q := by
    rw [Bool.eq_iff_iff, beq_iff_eq, decide_eq_true_iff, shown_inj]
  rejection := ⟨"Error", "data and hash arguments required"⟩

end Bcrypt
