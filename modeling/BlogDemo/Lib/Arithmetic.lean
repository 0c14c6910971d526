/-
  File:      BlogDemo/Lib/Arithmetic.lean
  Subject:   ARITHMETIC OF DOUBLES: sums, products and comparisons, each the exact result rounded once,
             counting up by one, and `parseInt` without a radix.

  * `add_one`, `add_one_top` -- counting is exact up to 2^53, and stays there;
  * `lt_top` -- a count below 2^53 is below every number that is above 2^53.
-/
import BlogDemo.Lib.Double
import BlogDemo.Lib.Num

namespace Ecma

open Double

/-! ## 1. Operations -/

/-- A whole number of at most 53 bits fits, whatever place its last bit has. -/
theorem Double.fits_whole {n k : Nat} (b : Nat) (h : n ≤ 2 ^ 53) (hb : n < 2 ^ b)
    (hk : b + k ≤ 2098) : Fits (n * 2 ^ k) := by
  refine ⟨gap_dvd k h, ?_⟩
  rcases Nat.eq_zero_or_pos n with rfl | hn
  · rw [Nat.zero_mul]
    decide
  · have hbound : n * 2 ^ k < 2 ^ (b + k) := by
      rw [Nat.pow_add]
      exact Nat.mul_lt_mul_of_pos_right hb (Nat.two_pow_pos k)
    have hne : n * 2 ^ k ≠ 0 := Nat.mul_ne_zero (by omega) (Nat.two_pow_pos k).ne'
    exact Nat.lt_of_lt_of_le ((Nat.log2_lt hne).mpr hbound) hk

/-- A whole number that is a double. -/
def Double.ofNat (n : Nat) (h : n ≤ 2 ^ 53 := by decide) : Double where
  units := (n * 2 ^ places : Nat)
  fits := by
    rw [Int.natAbs_natCast]
    exact fits_whole 54 h (Nat.lt_of_le_of_lt h (by decide)) (by decide)

theorem Double.ofNat_units_le {n m : Nat} (hn : n ≤ 2 ^ 53) (hm : m ≤ 2 ^ 53) (h : n ≤ m) :
    (Double.ofNat n hn).units ≤ (Double.ofNat m hm).units :=
  Int.ofNat_le.mpr (Nat.mul_le_mul_right _ h)

/-- No double of this many places has more units. -/
theorem Double.fits_le {u k : Nat} (h : Fits u) (hk : u.log2 ≤ 52 + k) :
    u ≤ (2 ^ 53 - 1) * 2 ^ k := by
  have hgap : gap u ≤ 2 ^ k := Nat.pow_le_pow_right (by decide) (by omega)
  have hunits : u / gap u ≤ 2 ^ 53 - 1 := Nat.le_sub_one_of_lt (div_gap_lt u)
  calc u = u / gap u * gap u := (Nat.div_mul_cancel h.1).symm
    _ ≤ (2 ^ 53 - 1) * 2 ^ k := Nat.mul_le_mul hunits hgap

/-- The greatest double. -/
def Double.max : Double where
  units := ((2 ^ 53 - 1) * 2 ^ 2045 : Nat)
  fits := by
    rw [Int.natAbs_natCast]
    exact fits_whole 53 (by decide) (by decide) (by decide)

theorem Double.le_max (x : Double) : x.units ≤ Double.max.units := by
  have hlog : x.units.natAbs.log2 ≤ 52 + 2045 := Nat.le_of_lt_succ x.fits.2
  have hle : (x.units.natAbs : Int) ≤ Double.max.units := Int.ofNat_le.mpr (fits_le x.fits hlog)
  exact Int.le_trans Int.le_natAbs hle

namespace Number

/-- The number nearest to `z / d` units. -/
def nearestTo (z : Int) (d : Nat) : Number :=
  (nearest z.natAbs d).elim (.infinity (z < 0)) (signed (z < 0))

/-- The number nearest to a whole number. -/
def ofInt (z : Int) : Number := nearestTo (z * 2 ^ places) 1

def zero : Number := .finite (.ofNat 0)

/-- `x + y` -/
def add (x : Double) : Number → Number
  | .finite y => nearestTo (x.units + y.units) 1
  | .infinity negative => .infinity negative

/-- `x * y`, where `y` is positive -/
def mul (y : Double) : Number → Number
  | .finite x => nearestTo (x.units * y.units) (2 ^ places)
  | .infinity negative => .infinity negative

/-- `x < y` -/
def lt : Number → Number → Bool
  | .finite x, .finite y => x.units < y.units
  | .finite _, .infinity negative => !negative
  | .infinity negative, .finite _ => negative
  | .infinity x, .infinity y => x && !y

theorem lt_finite (x y : Double) : lt (.finite x) (.finite y) = true ↔ x.units < y.units :=
  decide_eq_true_iff

theorem lt_infinity (x : Double) (negative : Bool) :
    lt (.finite x) (.infinity negative) = !negative := rfl

/-! ## 2. Counting up -/

/-- A double is nearest to itself. -/
theorem nearestTo_self (x : Double) : nearestTo x.units 1 = .finite x := by
  have hself := nearest_self ⟨x.units.natAbs, x.fits⟩ Nat.one_pos
  rw [Nat.mul_one] at hself
  rw [nearestTo, hself, Option.elim_some, signed, Number.finite.injEq, Double.mk.injEq]
  exact sign_natAbs x.units

/-- **Counting is exact** up to 2^53. -/
theorem add_one {n : Nat} (h : n < 2 ^ 53) :
    add (.ofNat n h.le) (.finite (.ofNat 1)) = .finite (.ofNat (n + 1) h) := by
  have hunits : (Double.ofNat n h.le).units + (Double.ofNat 1).units =
      (Double.ofNat (n + 1) h).units := by
    simp only [Double.ofNat, ← Int.natCast_add, ← Nat.add_mul]
  rw [add, hunits, nearestTo_self]

/-- **At 2^53 it stays**: the next whole number lies halfway between two doubles, and the even one of
    them is 2^53. -/
theorem add_one_top :
    add (.ofNat (2 ^ 53)) (.finite (.ofNat 1)) = .finite (.ofNat (2 ^ 53)) := by
  decide +kernel

/-- What is above 2^53 is above every count. -/
theorem lt_of_top {n : Nat} (h : n ≤ 2 ^ 53) {y : Number}
    (hy : lt (.finite (.ofNat (2 ^ 53))) y = true) : lt (.finite (.ofNat n h)) y = true := by
  cases y with
  | infinity negative =>
    rw [lt_infinity] at hy ⊢
    exact hy
  | finite y =>
    rw [lt_finite] at hy ⊢
    have hle := ofNat_units_le (m := 2 ^ 53) h (by decide) h
    exact Int.lt_of_le_of_lt hle hy

/-! ## 3. `parseInt` -/

/-- The value of a digit. -/
def digit (c : Char) : Option Nat :=
  if c.isDigit then some (c.toNat - 48)
  else if c.isLower then some (c.toNat - 87)
  else if c.isUpper then some (c.toNat - 55)
  else none

def isDigitOf (radix : Nat) (c : Char) : Bool := (digit c).any (· < radix)

/-- The number that digits are, in this radix. -/
def ofDigits (radix : Nat) (ds : List Char) : Nat :=
  ds.foldl (fun n c => radix * n + (digit c).getD 0) 0

/-- The radix a numeral is in, and what follows the prefix that says so. -/
def radix : List Char → Nat × List Char
  | '0' :: 'x' :: cs => (16, cs)
  | '0' :: 'X' :: cs => (16, cs)
  | cs => (10, cs)

/-- `parseInt(text)`; `none` is `NaN`. -/
def parseInt (text : String) : Option Number :=
  let (negative, cs) := Js.sign (text.toList.dropWhile Js.isSpace)
  let (radix, cs) := radix cs
  let digits := cs.takeWhile (isDigitOf radix)
  if digits = [] then none
  else some (ofInt (if negative then -(ofDigits radix digits : Int) else ofDigits radix digits))

example : parseInt " -0x1Fz" = some (ofInt (-31)) := by decide +kernel

end Number

end Ecma
