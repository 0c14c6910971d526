/-
  File:      BlogDemo/Lib/Num.lean
  Subject:   `parseInt(text, 10)`: the digits a text begins with, as the number JavaScript has for
             them.

  A number is the nearest double (`nearest`): an integer of up to 53 bits is exact, a larger one is
  rounded to an even last place, and one from 2^1024 on is an infinity. The result is `none` where
  it is not finite (`NaN`, an infinity).
-/
import BlogDemo.Lib.Js
import Mathlib

namespace Js

/-- White space, as `String.prototype.trim` removes it. -/
def isSpace (c : Char) : Bool :=
  [0x09, 0x0A, 0x0B, 0x0C, 0x0D, 0x20, 0xA0, 0x1680, 0x2028, 0x2029, 0x202F, 0x205F, 0x3000,
    0xFEFF].contains c.toNat || (0x2000 ≤ c.toNat && c.toNat ≤ 0x200A)

/-- The double nearest to `n`, ties to an even last place; `none` is infinity. -/
def nearest (n : Nat) : Option Nat :=
  if n < 2 ^ 53 then some n
  else
    let place := 2 ^ (n.log2 - 52)
    let units := n / place
    let rest := n % place
    let rounded := if place < 2 * rest ∨ place = 2 * rest ∧ units % 2 = 1 then units + 1 else units
    if (rounded * place).log2 < 1024 then some (rounded * place) else none

def natOfDigits (digits : List Char) : Nat :=
  digits.foldl (fun n d => 10 * n + (d.toNat - 48)) 0

/-- The sign a text begins with, and what follows it. -/
def sign : List Char → Bool × List Char
  | '-' :: cs => (true, cs)
  | '+' :: cs => (false, cs)
  | cs => (false, cs)

/-- `parseInt(text, 10)`, where it is finite -/
def parseInt (text : String) : Option Int :=
  let (negative, cs) := sign (text.toList.dropWhile isSpace)
  let digits := cs.takeWhile Char.isDigit
  if digits = [] then none
  else (nearest (natOfDigits digits)).map fun n => if negative then -(n : Int) else n

/-- A sign and a space before the digits, and anything after them. -/
example : parseInt " -12px" = some (-12) := by decide

/-- Halfway between two doubles. -/
example : nearest (2 ^ 53 + 1) = some (2 ^ 53) := by decide +kernel

end Js
