/-
  File:      BlogDemo/Lib/Double.lean
  Subject:   NUMBERS as JavaScript has them: doubles, the numerals they are written as
             (`Number::toString`) and the numerals they are read from.

  A finite double is a whole number of units of 2^-1074, so rounding, printing and reading are
  arithmetic of whole numbers. A zero has no sign here: the two zeros are `===`, and both print
  as `0`. A text is a list of UTF-16 code units.

  * `nearest_self` -- a double is nearest to itself;
  * **`read_toText`** -- what a finite number prints as is read back as that number.
-/
import Mathlib

namespace Utf16

/-- A text, in UTF-16 code units. -/
abbrev Text := List UInt16

def unit (c : Char) : UInt16 := UInt16.ofNat c.toNat

/-- A literal of the program, which has no character beyond 2^16. -/
def text (s : String) : Text := s.toList.map unit

def isDigit (c : UInt16) : Bool := 0x30 ≤ c && c ≤ 0x39

def digitValue (c : UInt16) : Nat := c.toNat - 0x30

def natOfDigits (m : Nat) (ds : Text) : Nat := ds.foldl (fun m c => 10 * m + digitValue c) m

/-- The decimal digits of `n`. -/
def digits (n : Nat) : Text := (Nat.toDigits 10 n).map unit

theorem unit_toNat {c : Char} (h : c.toNat < 2 ^ 16) : (unit c).toNat = c.toNat :=
  UInt16.toNat_ofNat_of_lt' h

theorem digit_bounds {c : Char} (h : c.isDigit = true) : 0x30 ≤ c.toNat ∧ c.toNat ≤ 0x39 := by
  simp only [Char.isDigit, Bool.and_eq_true, decide_eq_true_eq, ge_iff_le,
    UInt32.le_iff_toNat_le] at h
  exact h

theorem isDigit_digits {n : Nat} {c : UInt16} (h : c ∈ digits n) : isDigit c = true := by
  obtain ⟨d, hd, rfl⟩ := List.mem_map.mp h
  obtain ⟨hlow, hhigh⟩ := digit_bounds (Nat.isDigit_of_mem_toDigits (by decide) (by decide) hd)
  simp [isDigit, UInt16.le_iff_toNat_le, unit_toNat (show d.toNat < 2 ^ 16 by omega), hlow, hhigh]

theorem natOfDigits_append (m : Nat) (as bs : Text) :
    natOfDigits m (as ++ bs) = natOfDigits (natOfDigits m as) bs := List.foldl_append

theorem natOfDigits_zeros (m k : Nat) : natOfDigits m (List.replicate k 0x30) = m * 10 ^ k := by
  induction k generalizing m with
  | zero => simp [natOfDigits]
  | succ k ih =>
      have hstep : natOfDigits m (0x30 :: List.replicate k 0x30) =
          natOfDigits (10 * m) (List.replicate k 0x30) := rfl
      rw [List.replicate_succ, hstep, ih, Nat.pow_succ']
      ac_rfl

theorem natOfDigits_map {ds : List Char} (h : ∀ c ∈ ds, c.isDigit = true) (m : Nat) :
    natOfDigits m (ds.map unit) = Nat.ofDigitChars 10 ds m := by
  induction ds generalizing m with
  | nil => simp [natOfDigits]
  | cons d ds ih =>
      obtain ⟨-, hhigh⟩ := digit_bounds (h d (List.mem_cons_self ..))
      have hunit : digitValue (unit d) = d.toNat - '0'.toNat := by
        rw [digitValue, unit_toNat (by omega)]
        rfl
      rw [Nat.ofDigitChars_cons, ← ih (fun c hc => h c (List.mem_cons_of_mem d hc)), ← hunit]
      rfl

theorem natOfDigits_digits (n : Nat) : natOfDigits 0 (digits n) = n := by
  rw [digits, natOfDigits_map (fun c hc => Nat.isDigit_of_mem_toDigits (by decide) (by decide) hc)]
  exact Nat.ofDigitChars_ten_toDigits

/-- The first digit of a number is no zero. -/
theorem digits_cons {n : Nat} (h : 0 < n) : ∃ d ds, digits n = d :: ds ∧ d ≠ 0x30 := by
  induction n using Nat.strongRecOn with
  | ind n ih =>
      rcases Nat.lt_or_ge n 10 with hlt | hge
      · have hall : ∀ m < 10, 0 < m → unit m.digitChar ≠ 0x30 := by decide
        refine ⟨unit n.digitChar, [], ?_, hall n hlt h⟩
        rw [digits, Nat.toDigits_of_lt_base hlt]
        rfl
      · obtain ⟨d, ds, hds, hd⟩ := ih (n / 10) (by omega) (by omega)
        refine ⟨d, ds ++ [unit (n % 10).digitChar], ?_, hd⟩
        rw [digits] at hds
        rw [digits, Nat.toDigits_of_base_le (by decide) hge, List.map_append, hds]
        rfl

end Utf16

namespace Ecma

open Utf16

/-! ## 1. Doubles, and the one nearest to a quotient -/

namespace Double

/-- The distance of the doubles near `u` units from each other. -/
def gap (u : Nat) : Nat := 2 ^ (u.log2 - 52)

/-- A unit is 2^-1074. -/
def places : Nat := 1074

/-- `u` units are a double: at most 53 bits, below 2^1024. -/
def Fits (u : Nat) : Prop := gap u ∣ u ∧ u.log2 < 2098

instance (u : Nat) : Decidable (Fits u) := inferInstanceAs (Decidable (_ ∧ _))

/-- The multiple of the gap nearest to `n / d`, in gaps; ties to the even one. -/
def round (n d : Nat) : Nat :=
  let g := d * gap (n / d)
  if g < 2 * (n % g) ∨ g = 2 * (n % g) ∧ n / g % 2 = 1 then n / g + 1 else n / g

theorem gap_pos (u : Nat) : 0 < gap u := Nat.two_pow_pos _

theorem div_gap_lt (u : Nat) : u / gap u < 2 ^ 53 := by
  refine Nat.div_lt_of_lt_mul ?_
  have hlog : u < 2 ^ (u.log2 + 1) := Nat.lt_log2_self
  rw [gap, ← Nat.pow_add]
  exact Nat.lt_of_lt_of_le hlog (Nat.pow_le_pow_right (by decide) (by omega))

theorem round_le (n d : Nat) : round n d ≤ 2 ^ 53 := by
  have hdiv : n / (d * gap (n / d)) < 2 ^ 53 := by
    rw [← Nat.div_div_eq_div_mul]
    exact div_gap_lt (n / d)
  unfold round
  simp only
  split <;> omega

/-- At most 2^53 gaps are a double: their sum has a gap that divides it. -/
theorem gap_dvd {m : Nat} (k : Nat) (h : m ≤ 2 ^ 53) : gap (m * 2 ^ k) ∣ m * 2 ^ k := by
  rcases Nat.eq_zero_or_pos m with rfl | hm
  · simp
  have hne : m * 2 ^ k ≠ 0 := Nat.mul_ne_zero (by omega) (Nat.ne_of_gt (Nat.two_pow_pos k))
  rcases Nat.lt_or_eq_of_le h with hlt | rfl
  · have hsum : m * 2 ^ k < 2 ^ (53 + k) := by
      rw [Nat.pow_add]
      exact Nat.mul_lt_mul_of_pos_right hlt (Nat.two_pow_pos k)
    have hlog : (m * 2 ^ k).log2 < 53 + k := (Nat.log2_lt hne).mpr hsum
    exact Nat.dvd_trans (Nat.pow_dvd_pow 2 (by omega)) (Nat.dvd_mul_left _ m)
  · rw [gap, ← Nat.pow_add, Nat.log2_two_pow]
    exact Nat.pow_dvd_pow 2 (by omega)

/-- The double nearest to `n / d` units; `none` is an infinity. -/
def nearest (n d : Nat) : Option { u : Nat // Fits u } :=
  if h : (round n d * gap (n / d)).log2 < 2098 then
    some ⟨round n d * gap (n / d), gap_dvd _ (round_le n d), h⟩
  else none

/-- A double is nearest to itself. -/
theorem nearest_self (u : { u : Nat // Fits u }) {d : Nat} (hd : 0 < d) :
    nearest (u.1 * d) d = some u := by
  obtain ⟨u, hgap, hlt⟩ := u
  have hdiv : u * d / d = u := Nat.mul_div_cancel u hd
  have hrest : u * d % (d * gap u) = 0 := by
    rw [Nat.mul_comm u d, Nat.mul_mod_mul_left, Nat.mod_eq_zero_of_dvd hgap, Nat.mul_zero]
  have hquot : u * d / (d * gap u) = u / gap u := by
    rw [Nat.mul_comm u d, Nat.mul_div_mul_left _ _ hd]
  have hround : round (u * d) d = u / gap u := by
    have hpos : 0 < d * gap u := Nat.mul_pos hd (gap_pos u)
    unfold round
    simp only [hdiv, hrest, hquot]
    rw [if_neg (by omega)]
  unfold nearest
  simp only [hround, hdiv, Nat.div_mul_cancel hgap, dif_pos hlt]

end Double

/-- A finite double. -/
structure Double where
  units : Int
  fits : Double.Fits units.natAbs
  deriving DecidableEq, Repr

/-- A number, `NaN` apart. -/
inductive Number where
  | finite (x : Double)
  | infinity (negative : Bool)
  deriving DecidableEq, Repr

namespace Number

open Double

/-- `±u` -/
def sign (negative : Bool) (u : Nat) : Int := if negative then -(u : Int) else u

theorem natAbs_sign (negative : Bool) (u : Nat) : (sign negative u).natAbs = u := by
  cases negative <;> simp [sign]

theorem sign_natAbs (z : Int) : sign (z < 0) z.natAbs = z := by
  by_cases h : z < 0
  · rw [decide_eq_true h, sign, if_pos rfl]
    omega
  · rw [decide_eq_false h, sign, if_neg (by decide)]
    omega

def signed (negative : Bool) (u : { u : Nat // Fits u }) : Number :=
  .finite ⟨sign negative u.1, by rw [natAbs_sign]; exact u.2⟩

/-- The double nearest to `s · 10^e`. -/
def nearestDecimal (s : Nat) (e : Int) : Option { u : Nat // Fits u } :=
  nearest (2 ^ places * (s * 10 ^ e.toNat)) (10 ^ (-e).toNat)

/-- The number that `±s · 10^e` is read as. -/
def ofDecimal (negative : Bool) (s : Nat) (e : Int) : Number :=
  (nearestDecimal s e).elim (.infinity negative) (signed negative)

theorem ofDecimal_of_nearest {s : Nat} {e : Int} {u : { u : Nat // Fits u }} (negative : Bool)
    (h : nearestDecimal s e = some u) : ofDecimal negative s e = signed negative u := by
  rw [ofDecimal, h, Option.elim_some]

/-! ## 2. The shortest digits -/

/-- The `s` for which `s · 10^e` is read as `u` units: one of the two next to `u`, the nearer if
    both are, and the even one if they are equally near. -/
def candidate (u : { u : Nat // Fits u }) (e : Int) : Option (Nat × Int) :=
  let n := u.1 * 10 ^ (-e).toNat
  let d := 2 ^ places * 10 ^ e.toNat
  let low := n / d
  let above := d < 2 * (n % d) ∨ d = 2 * (n % d) ∧ low % 2 = 1
  if nearestDecimal low e = some u then
    if nearestDecimal (low + 1) e = some u ∧ above then some (low + 1, e) else some (low, e)
  else if nearestDecimal (low + 1) e = some u then some (low + 1, e)
  else none

/-- The digits a number prints: the `s · 10^e` read as it with as few digits as possible, so with
    the largest `e`. At the last place, 10^-1074, the number itself is one. -/
def shortest (u : { u : Nat // Fits u }) : Nat × Int :=
  ((List.range 1382).findSome? fun i => candidate u (308 - i)).getD
    (u.1 * 5 ^ places, -(places : Int))

theorem nearestDecimal_candidate {u : { u : Nat // Fits u }} {e : Int} {p : Nat × Int}
    (h : candidate u e = some p) : nearestDecimal p.1 p.2 = some u := by
  unfold candidate at h
  simp only at h
  split at h
  · rename_i hlow
    split at h
    · rename_i hup
      rw [← Option.some.inj h]
      exact hup.1
    · rw [← Option.some.inj h]
      exact hlow
  · split at h
    · rename_i hup
      rw [← Option.some.inj h]
      exact hup
    · cases h

theorem nearestDecimal_exact (u : { u : Nat // Fits u }) :
    nearestDecimal (u.1 * 5 ^ places) (-(places : Int)) = some u := by
  have hzero : (-(places : Int)).toNat = 0 := by simp
  have hplaces : (- -(places : Int)).toNat = places := by simp
  have hunits : 2 ^ places * (u.1 * 5 ^ places * 10 ^ 0) = u.1 * 10 ^ places := by
    rw [Nat.pow_zero, Nat.mul_one, Nat.mul_left_comm, ← Nat.mul_pow]
  rw [nearestDecimal, hzero, hplaces, hunits]
  exact nearest_self u (Nat.pow_pos (by decide))

theorem nearestDecimal_shortest (u : { u : Nat // Fits u }) :
    nearestDecimal (shortest u).1 (shortest u).2 = some u := by
  unfold shortest
  cases hfound : (List.range 1382).findSome? fun i => candidate u (308 - i) with
  | none => exact nearestDecimal_exact u
  | some p =>
      obtain ⟨i, -, hp⟩ := List.exists_of_findSome?_eq_some hfound
      exact nearestDecimal_candidate hp

theorem fits_zero : Fits 0 := ⟨Nat.dvd_zero _, by decide⟩

/-- Zero is read as zero, whatever its exponent. -/
theorem nearestDecimal_zero (e : Int) : nearestDecimal 0 e = some ⟨0, fits_zero⟩ := by
  have hunits : 2 ^ places * (0 * 10 ^ e.toNat) = 0 * 10 ^ (-e).toNat := by
    rw [Nat.zero_mul, Nat.mul_zero, Nat.zero_mul]
  rw [nearestDecimal, hunits]
  exact nearest_self ⟨0, fits_zero⟩ (Nat.pow_pos (by decide))

theorem shortest_pos {u : { u : Nat // Fits u }} (h : u.1 ≠ 0) : 0 < (shortest u).1 := by
  refine Nat.pos_of_ne_zero fun hzero => h ?_
  have hself := nearestDecimal_shortest u
  rw [hzero, nearestDecimal_zero] at hself
  exact congrArg Subtype.val (Option.some.inj hself).symm

/-- A number is what its shortest digits are read as. -/
theorem ofDecimal_shortest (x : Double) :
    let u : { u : Nat // Fits u } := ⟨x.units.natAbs, x.fits⟩
    ofDecimal (x.units < 0) (shortest u).1 (shortest u).2 = .finite x := by
  intro u
  rw [ofDecimal_of_nearest _ (nearestDecimal_shortest u), signed, Number.finite.injEq,
    Double.mk.injEq]
  exact sign_natAbs x.units

/-! ## 3. `Number::toString` -/

/-- A dot after the first digit, where more follow. -/
def mantissa : Text → Text
  | [] => []
  | [d] => [d]
  | d :: ds => d :: 0x2E :: ds

/-- The text of `s · 10^e`: `n` is the place of the point, counted from the first digit. -/
def decimal (s : Nat) (e : Int) : Text :=
  let ds := digits s
  let n := ds.length + e
  if 0 ≤ e ∧ n ≤ 21 then ds ++ List.replicate e.toNat 0x30
  else if 0 < n ∧ n ≤ 21 then ds.take n.toNat ++ 0x2E :: ds.drop n.toNat
  else if -6 < n ∧ n ≤ 0 then 0x30 :: 0x2E :: (List.replicate (-n).toNat 0x30 ++ ds)
  else mantissa ds ++ 0x65 :: (if n - 1 < 0 then 0x2D else 0x2B) :: digits (n - 1).natAbs

/-- `String(x)` -/
def toText : Number → Text
  | .finite x =>
    let u : { u : Nat // Fits u } := ⟨x.units.natAbs, x.fits⟩
    if x.units = 0 then [0x30]
    else if x.units < 0 then 0x2D :: decimal (shortest u).1 (shortest u).2
    else decimal (shortest u).1 (shortest u).2
  | .infinity negative => if negative then text "-Infinity" else text "Infinity"

/-! ## 4. Numerals, as JSON writes them -/

end Number

/-- What has been read of a numeral last. -/
inductive Phase where
  | start
  | minus
  | zero
  | int
  | point
  | fraction
  | e
  | sign
  | exponent
  deriving DecidableEq, Repr

/-- What has been read of a numeral. -/
structure Numeral where
  phase : Phase
  negative : Bool
  significand : Nat
  places : Nat
  expNegative : Bool
  exponent : Nat
  deriving DecidableEq, Repr

namespace Numeral

def empty : Numeral := ⟨.start, false, 0, 0, false, 0⟩

/-- The first digit; after a zero there is no other one. -/
def first (n : Numeral) (c : UInt16) : Option Numeral :=
  if c = 0x30 then some { n with phase := .zero }
  else if isDigit c then some { n with phase := .int, significand := digitValue c }
  else none

def intDigit (n : Numeral) (c : UInt16) : Numeral :=
  { n with significand := 10 * n.significand + digitValue c }

def fractionDigit (n : Numeral) (c : UInt16) : Numeral :=
  { n with
    phase := .fraction
    significand := 10 * n.significand + digitValue c
    places := n.places + 1 }

def exponentDigit (n : Numeral) (c : UInt16) : Numeral :=
  { n with phase := .exponent, exponent := 10 * n.exponent + digitValue c }

/-- What may follow the digits before an exponent. -/
def e (n : Numeral) (c : UInt16) : Option Numeral :=
  if c = 0x65 ∨ c = 0x45 then some { n with phase := .e } else none

/-- The numeral with one more character, if it goes on. -/
def next (n : Numeral) (c : UInt16) : Option Numeral :=
  match n.phase with
  | .start => if c = 0x2D then some { n with phase := .minus, negative := true } else n.first c
  | .minus => n.first c
  | .zero => if c = 0x2E then some { n with phase := .point } else n.e c
  | .int =>
    if isDigit c then some (n.intDigit c)
    else if c = 0x2E then some { n with phase := .point } else n.e c
  | .point => if isDigit c then some (n.fractionDigit c) else none
  | .fraction => if isDigit c then some (n.fractionDigit c) else n.e c
  | .e =>
    if isDigit c then some (n.exponentDigit c)
    else if c = 0x2B then some { n with phase := .sign }
    else if c = 0x2D then some { n with phase := .sign, expNegative := true } else none
  | .sign | .exponent => if isDigit c then some (n.exponentDigit c) else none

/-- Nothing is missing. -/
def complete (n : Numeral) : Bool :=
  n.phase = .zero || n.phase = .int || n.phase = .fraction || n.phase = .exponent

def value (n : Numeral) : Number :=
  Number.ofDecimal n.negative n.significand
    ((if n.expNegative then -(n.exponent : Int) else n.exponent) - n.places)

def read (n : Numeral) (cs : Text) : Option Numeral := cs.foldlM next n

/-! ## 5. What a number prints as is read back as the number -/

@[simp] theorem read_nil (n : Numeral) : n.read [] = some n := rfl

theorem read_cons (n : Numeral) (c : UInt16) (cs : Text) :
    n.read (c :: cs) = (n.next c).bind (read · cs) := rfl

theorem read_append (n : Numeral) (as bs : Text) :
    n.read (as ++ bs) = (n.read as).bind (read · bs) := List.foldlM_append

theorem read_int {n : Numeral} (hn : n.phase = .int) {ds : Text} (hds : ∀ c ∈ ds, isDigit c) :
    n.read ds = some { n with significand := natOfDigits n.significand ds } := by
  induction ds generalizing n with
  | nil => rfl
  | cons c ds ih =>
      have hnext : n.next c = some (n.intDigit c) := by
        simp only [next, hn, hds c (List.mem_cons_self ..), if_true]
      have hint : (n.intDigit c).phase = .int := hn
      rw [read_cons, hnext, Option.bind_some,
        ih hint fun c hc => hds c (List.mem_cons_of_mem _ hc)]
      rfl

theorem read_fraction {n : Numeral} (hn : n.phase = .point ∨ n.phase = .fraction) {c : UInt16}
    {ds : Text} (hds : ∀ d ∈ c :: ds, isDigit d) :
    n.read (c :: ds) = some
      { n with
        phase := .fraction
        significand := natOfDigits n.significand (c :: ds)
        places := n.places + (ds.length + 1) } := by
  have hnext : n.next c = some (n.fractionDigit c) := by
    rcases hn with hn | hn <;> simp only [next, hn, hds c (List.mem_cons_self ..), if_true]
  rw [read_cons, hnext, Option.bind_some]
  induction ds generalizing n c with
  | nil => rfl
  | cons d ds ih =>
      have hd : isDigit d = true := hds d (by simp)
      have hnext' : (n.fractionDigit c).next d = some ((n.fractionDigit c).fractionDigit d) := by
        simp only [next, fractionDigit, hd, if_true]
      rw [read_cons, hnext', Option.bind_some,
        ih (.inr rfl) (fun x hx => hds x (List.mem_cons_of_mem _ hx)) hnext']
      simp only [fractionDigit, List.length_cons, Option.some.injEq, mk.injEq, true_and, and_true]
      exact ⟨rfl, by omega⟩

theorem read_exponent {n : Numeral} (hn : n.phase = .sign ∨ n.phase = .exponent) {ds : Text}
    (hds : ∀ d ∈ ds, isDigit d) (hne : ds ≠ []) :
    n.read ds = some
      { n with phase := .exponent, exponent := natOfDigits n.exponent ds } := by
  induction ds generalizing n with
  | nil => exact absurd rfl hne
  | cons c ds ih =>
      have hnext : n.next c = some (n.exponentDigit c) := by
        rcases hn with hn | hn <;> simp only [next, hn, hds c (List.mem_cons_self ..), if_true]
      rw [read_cons, hnext, Option.bind_some]
      cases ds with
      | nil => rfl
      | cons d ds =>
          rw [ih (.inr rfl) (fun x hx => hds x (List.mem_cons_of_mem _ hx)) (List.cons_ne_nil _ _)]
          rfl

/-- The integer part begins with a digit that is no zero. -/
theorem read_first {n : Numeral} (hn : n.phase = .start ∨ n.phase = .minus) {d : UInt16}
    {ds : Text} (hds : ∀ c ∈ d :: ds, isDigit c) (hd : d ≠ 0x30) :
    n.read (d :: ds) = some { n with phase := .int, significand := natOfDigits 0 (d :: ds) } := by
  have hdigit : isDigit d = true := hds d (List.mem_cons_self ..)
  have hminus : d ≠ 0x2D := by
    intro heq
    subst heq
    exact absurd hdigit (by decide)
  have hnext : n.next d = some { n with phase := .int, significand := digitValue d } := by
    rcases hn with hn | hn <;> simp only [next, hn, first, hdigit, hminus, hd, if_true, if_false]
  rw [read_cons, hnext, Option.bind_some,
    read_int rfl fun c hc => hds c (List.mem_cons_of_mem _ hc)]
  have hvalue : natOfDigits 0 (d :: ds) = natOfDigits (digitValue d) ds := by
    simp only [natOfDigits, List.foldl_cons, Nat.mul_zero, Nat.zero_add]
  rw [hvalue]

/-- A numeral is complete and stands for `±s · 10^e`. -/
def Denotes (negative : Bool) (s : Nat) (e : Int) (n : Numeral) : Prop :=
  n.complete = true ∧ n.value = Number.ofDecimal negative s e

theorem nearestDecimal_zeros (s : Nat) {e : Int} (h : 0 ≤ e) :
    Number.nearestDecimal (s * 10 ^ e.toNat) 0 = Number.nearestDecimal s e := by
  have hneg : (-e).toNat = 0 := by omega
  simp only [Number.nearestDecimal, hneg, Int.neg_zero, Int.toNat_zero, Nat.pow_zero, Nat.mul_one]

/-- Before its first digit. -/
def before (negative : Bool) (phase : Phase) : Numeral := ⟨phase, negative, 0, 0, false, 0⟩

section Printed

/-! The digits of `s`, read from the beginning or after a minus, and what comes with them. -/

variable {negative : Bool} {phase : Phase} {s : Nat} {e : Int}

/-- `ddd000` -/
theorem read_whole (hphase : phase = .start ∨ phase = .minus) (hs : 0 < s) (he : 0 ≤ e) :
    ∃ n, (before negative phase).read (digits s ++ List.replicate e.toNat 0x30) = some n ∧
      Denotes negative s e n := by
  obtain ⟨d, ds, hds, hd⟩ := digits_cons hs
  have hdigits : ∀ c ∈ d :: ds, isDigit c = true := fun c hc => isDigit_digits (hds ▸ hc)
  have hzeros : ∀ c ∈ List.replicate e.toNat (0x30 : UInt16), isDigit c = true := by
    intro c hc
    rw [List.eq_of_mem_replicate hc]
    rfl
  have hfirst := read_first (n := before negative phase) hphase hdigits hd
  rw [← hds, natOfDigits_digits] at hfirst
  have hread : (before negative phase).read (digits s ++ List.replicate e.toNat 0x30) =
      some ⟨.int, negative, s * 10 ^ e.toNat, 0, false, 0⟩ := by
    rw [read_append, hfirst, Option.bind_some, read_int rfl hzeros, natOfDigits_zeros]
    rfl
  refine ⟨_, hread, rfl, ?_⟩
  show Number.ofDecimal negative (s * 10 ^ e.toNat) 0 = Number.ofDecimal negative s e
  rw [Number.ofDecimal, nearestDecimal_zeros s he, Number.ofDecimal]

/-- `ddd.ddd` -/
theorem read_point (hphase : phase = .start ∨ phase = .minus) (hs : 0 < s) (he : e < 0)
    (hn : 0 < (digits s).length + e) :
    let n := ((digits s).length + e).toNat
    ∃ m, (before negative phase).read ((digits s).take n ++ 0x2E :: (digits s).drop n) = some m ∧
      Denotes negative s e m := by
  intro n
  obtain ⟨d, ds, hds, hd⟩ := digits_cons hs
  have hdigits : ∀ c ∈ digits s, isDigit c = true := fun c hc => isDigit_digits hc
  obtain ⟨k, hk⟩ : ∃ k, n = k + 1 := ⟨n - 1, by omega⟩
  have htake : (digits s).take n = d :: ds.take k := by rw [hds, hk, List.take_succ_cons]
  obtain ⟨c, cs, hdrop⟩ : ∃ c cs, (digits s).drop n = c :: cs := by
    refine List.exists_cons_of_ne_nil fun hnil => ?_
    have hlen := List.drop_eq_nil_iff.mp hnil
    omega
  have hfirst := read_first (n := before negative phase) hphase
    (fun c hc => hdigits c (List.mem_of_mem_take (htake ▸ hc))) hd
  have hrest := read_fraction
    (n := { before negative phase with
      phase := .point, significand := natOfDigits 0 ((digits s).take n) })
    (.inl rfl) (fun c hc => hdigits c (List.mem_of_mem_drop (hdrop ▸ hc)))
  have hlen : cs.length + 1 = (digits s).length - n := by
    rw [← List.length_drop, hdrop, List.length_cons]
  rw [← htake] at hfirst
  rw [← hdrop, hlen, ← natOfDigits_append, List.take_append_drop, natOfDigits_digits] at hrest
  have hread : (before negative phase).read ((digits s).take n ++ 0x2E :: (digits s).drop n) =
      some ⟨.fraction, negative, s, (digits s).length - n, false, 0⟩ := by
    rw [read_append, hfirst, Option.bind_some, read_cons]
    simpa [next, isDigit, before] using hrest
  refine ⟨_, hread, rfl, ?_⟩
  show Number.ofDecimal negative s (0 - ((digits s).length - n : Nat)) = Number.ofDecimal negative s e
  congr 1
  omega

/-- `0.000ddd` -/
theorem read_small (hphase : phase = .start ∨ phase = .minus) (hs : 0 < s)
    (hn : (digits s).length + e ≤ 0) :
    let zeros := (-((digits s).length + e)).toNat
    ∃ m, (before negative phase).read
        (0x30 :: 0x2E :: (List.replicate zeros 0x30 ++ digits s)) = some m ∧
      Denotes negative s e m := by
  intro zeros
  have hdigits : ∀ c ∈ List.replicate zeros 0x30 ++ digits s, isDigit c = true := by
    intro c hc
    rcases List.mem_append.mp hc with hc | hc
    · rw [List.eq_of_mem_replicate hc]
      rfl
    · exact isDigit_digits hc
  obtain ⟨c, cs, hcs⟩ : ∃ c cs, List.replicate zeros 0x30 ++ digits s = c :: cs := by
    obtain ⟨d, ds, hds, -⟩ := digits_cons hs
    exact List.exists_cons_of_ne_nil (by simp [hds])
  have hlen : cs.length + 1 = zeros + (digits s).length := by
    rw [← List.length_cons (a := c), ← hcs, List.length_append, List.length_replicate]
  have hvalue : natOfDigits 0 (List.replicate zeros 0x30 ++ digits s) = s := by
    rw [natOfDigits_append, natOfDigits_zeros, Nat.zero_mul, natOfDigits_digits]
  have hrest := read_fraction (n := { before negative phase with phase := .point })
    (.inl rfl) (fun d hd => hdigits d (hcs ▸ hd))
  rw [← hcs, hlen] at hrest
  have hread : (before negative phase).read
      (0x30 :: 0x2E :: (List.replicate zeros 0x30 ++ digits s)) =
      some ⟨.fraction, negative, s, zeros + (digits s).length, false, 0⟩ := by
    have hzero : (before negative phase).next 0x30 =
        some { before negative phase with phase := .zero } := by
      rcases hphase with rfl | rfl <;> rfl
    have hpoint : ({ before negative phase with phase := .zero } : Numeral).next 0x2E =
        some { before negative phase with phase := .point } := rfl
    rw [read_cons, hzero, Option.bind_some, read_cons, hpoint, Option.bind_some, hrest]
    simp only [before, hvalue, Nat.zero_add]
  refine ⟨_, hread, rfl, ?_⟩
  show Number.ofDecimal negative s (0 - (zeros + (digits s).length : Nat)) =
    Number.ofDecimal negative s e
  congr 1
  omega

/-- The digits with a point after the first one, before an exponent. -/
theorem read_mantissa (hphase : phase = .start ∨ phase = .minus) (hs : 0 < s) :
    ∃ p, (p = .int ∨ p = .fraction) ∧
      (before negative phase).read (Number.mantissa (digits s)) =
        some ⟨p, negative, s, (digits s).length - 1, false, 0⟩ := by
  obtain ⟨d, ds, hds, hd⟩ := digits_cons hs
  have hdigits : ∀ c ∈ d :: ds, isDigit c = true := fun c hc => isDigit_digits (hds ▸ hc)
  have hvalue := natOfDigits_digits s
  have hone : ∀ c ∈ [d], isDigit c = true := by
    rw [List.forall_mem_singleton]
    exact hdigits d (List.mem_cons_self ..)
  have hfirst := read_first (n := before negative phase) hphase hone hd
  rw [hds] at hvalue ⊢
  cases ds with
  | nil =>
      rw [hvalue] at hfirst
      exact ⟨.int, .inl rfl, hfirst⟩
  | cons c cs =>
      have hrest := read_fraction
        (n := { before negative phase with
          phase := .point, significand := natOfDigits 0 [d] })
        (.inl rfl) (fun x hx => hdigits x (List.mem_cons_of_mem d hx))
      have hpoint : ({ before negative phase with
          phase := .int, significand := natOfDigits 0 [d] } : Numeral).next 0x2E =
          some { before negative phase with
            phase := .point, significand := natOfDigits 0 [d] } := rfl
      rw [← natOfDigits_append, List.singleton_append, hvalue] at hrest
      refine ⟨.fraction, .inr rfl, ?_⟩
      show (before negative phase).read ([d] ++ 0x2E :: c :: cs) = _
      rw [read_append, hfirst, Option.bind_some, read_cons, hpoint, Option.bind_some, hrest]
      simp only [before, Nat.zero_add, List.length_cons, Nat.add_sub_cancel]

/-- `d.ddde+dd` -/
theorem read_exponential (hphase : phase = .start ∨ phase = .minus) (hs : 0 < s) :
    let n := (digits s).length + e - 1
    ∃ m, (before negative phase).read (Number.mantissa (digits s) ++
        0x65 :: (if n < 0 then 0x2D else 0x2B) :: digits n.natAbs) = some m ∧
      Denotes negative s e m := by
  intro n
  obtain ⟨p, hp, hmantissa⟩ := @read_mantissa negative phase s hphase hs
  have hpos : 0 < (digits s).length := by
    obtain ⟨d, ds, hds, -⟩ := digits_cons hs
    rw [hds]
    exact Nat.succ_pos _
  have he : (⟨p, negative, s, (digits s).length - 1, false, 0⟩ : Numeral).next 0x65 =
      some ⟨.e, negative, s, (digits s).length - 1, false, 0⟩ := by
    rcases hp with rfl | rfl <;> rfl
  have hsign : (⟨.e, negative, s, (digits s).length - 1, false, 0⟩ : Numeral).next
        (if n < 0 then 0x2D else 0x2B) =
      some ⟨.sign, negative, s, (digits s).length - 1, n < 0, 0⟩ := by
    by_cases h : n < 0
    · rw [if_pos h, decide_eq_true h]
      rfl
    · rw [if_neg h, decide_eq_false h]
      rfl
  have hexp : digits n.natAbs ≠ [] := by
    rw [digits, Ne, List.map_eq_nil_iff]
    exact Nat.toDigits_ne_nil
  have hrest := read_exponent
    (n := ⟨.sign, negative, s, (digits s).length - 1, n < 0, 0⟩) (.inl rfl)
    (fun c hc => isDigit_digits hc) hexp
  rw [natOfDigits_digits] at hrest
  have hread : (before negative phase).read (Number.mantissa (digits s) ++
      0x65 :: (if n < 0 then 0x2D else 0x2B) :: digits n.natAbs) =
      some ⟨.exponent, negative, s, (digits s).length - 1, n < 0, n.natAbs⟩ := by
    rw [read_append, hmantissa, Option.bind_some, read_cons, he, Option.bind_some, read_cons,
      hsign, Option.bind_some, hrest]
  refine ⟨_, hread, rfl, ?_⟩
  show Number.ofDecimal negative s ((if decide (n < 0) then -(n.natAbs : Int) else n.natAbs) -
    ((digits s).length - 1 : Nat)) = Number.ofDecimal negative s e
  congr 1
  by_cases h : n < 0
  · rw [decide_eq_true h, if_pos rfl]
    omega
  · rw [decide_eq_false h, if_neg (by decide)]
    omega

theorem read_decimal (hphase : phase = .start ∨ phase = .minus) (hs : 0 < s) :
    ∃ n, (before negative phase).read (Number.decimal s e) = some n ∧ Denotes negative s e n := by
  unfold Number.decimal
  simp only
  split
  · rename_i h
    exact read_whole hphase hs h.1
  · rename_i hwhole
    split
    · rename_i h
      exact read_point hphase hs (by omega) h.1
    · split
      · rename_i h
        exact read_small hphase hs h.2
      · exact read_exponential hphase hs

end Printed

/-- **What a finite number prints as is read back as the number.** -/
theorem read_toText (x : Double) :
    ∃ n, empty.read (Number.toText (.finite x)) = some n ∧ n.complete = true ∧
      n.value = .finite x := by
  have hvalue := Number.ofDecimal_shortest x
  have hpos : x.units ≠ 0 → 0 < (Number.shortest ⟨x.units.natAbs, x.fits⟩).1 := fun h =>
    Number.shortest_pos (Int.natAbs_ne_zero.mpr h)
  unfold Number.toText
  simp only at hvalue ⊢
  generalize Number.shortest ⟨x.units.natAbs, x.fits⟩ = p at hvalue hpos ⊢
  split
  · rename_i hzero
    have hx : (Number.finite x) = Number.ofDecimal false 0 0 := by
      obtain ⟨units, fits⟩ := x
      simp only at hzero
      subst hzero
      rw [Number.ofDecimal_of_nearest false (Number.nearestDecimal_zero 0), Number.signed,
        Number.finite.injEq, Double.mk.injEq]
      rfl
    exact ⟨⟨.zero, false, 0, 0, false, 0⟩, rfl, rfl, hx.symm⟩
  · rename_i hne
    split
    · rename_i hneg
      obtain ⟨n, hread, hcomplete, hn⟩ := @read_decimal true .minus p.1 p.2 (.inr rfl) (hpos hne)
      rw [decide_eq_true hneg] at hvalue
      have hminus : empty.next 0x2D = some (before true .minus) := rfl
      refine ⟨n, ?_, hcomplete, hn.trans hvalue⟩
      rw [read_cons, hminus, Option.bind_some, hread]
    · rename_i hneg
      obtain ⟨n, hread, hcomplete, hn⟩ := @read_decimal false .start p.1 p.2 (.inl rfl) (hpos hne)
      rw [decide_eq_false hneg] at hvalue
      exact ⟨n, hread, hcomplete, hn.trans hvalue⟩

end Numeral

end Ecma
