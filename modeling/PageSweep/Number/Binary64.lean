import PageSweep.Number.Numeral

/-!
# Doubles

A finite double is an exact number `±mantissa · 2 ^ exponent`, and every operation is exact arithmetic on
natural numbers followed by one rounding to the nearest double, a tie going to the even mantissa. A result
too large for a double has none.

* `roundQuotient_mul_self`: rounding a whole quotient changes nothing.
-/

namespace PageSweep.Number

/-- The quotient rounded to the nearest whole number, a half to the even one. -/
def roundQuotient (num den : Nat) : Nat :=
  let q := num / den
  let r := num % den
  if 2 * r < den then q
  else if den < 2 * r then q + 1
  else if q % 2 = 0 then q else q + 1

/-- A finite double: at most 53 bits of mantissa, the least exponent being -1074. -/
structure Binary64 where
  negative : Bool
  mantissa : Nat
  exponent : Int
deriving DecidableEq, Repr

namespace Binary64

def zero : Binary64 := ⟨false, 0, -1074⟩

/-- A double without its sign. -/
def abs (x : Binary64) : Binary64 := { x with negative := false }

def neg (x : Binary64) : Binary64 := { x with negative := !x.negative }

def isZero (x : Binary64) : Bool := x.mantissa == 0

/-- The size as a quotient of natural numbers. -/
def ratio (x : Binary64) : Nat × Nat :=
  (x.mantissa * Nat.pow 2 x.exponent.toNat, Nat.pow 2 (-x.exponent).toNat)

/-- The exponent under which a positive quotient has a 53-bit mantissa, if it is not below the least one. -/
def exponentFor (num den : Nat) : Int :=
  let e : Int := (Nat.log2 num : Int) - Nat.log2 den - 52
  let tooGreat := num * Nat.pow 2 (-e).toNat < den * Nat.pow 2 52 * Nat.pow 2 e.toNat
  max (-1074) (if tooGreat then e - 1 else e)

/-- The double nearest to a quotient, unless it is beyond the greatest double. -/
def ofRatio? (num den : Nat) : Option Binary64 :=
  if num = 0 then some zero
  else
    let e := exponentFor num den
    let m := roundQuotient (num * Nat.pow 2 (-e).toNat) (den * Nat.pow 2 e.toNat)
    let (m, e) := if m = Nat.pow 2 53 then (Nat.pow 2 52, e + 1) else (m, e)
    if 971 < e then none else some ⟨false, m, e⟩

/-- The double nearest to a natural number below 2 ^ 1023. -/
def ofNat (n : Nat) : Binary64 := (ofRatio? n 1).getD zero

/-- The product of two sizes, rounded. -/
def mul? (x y : Binary64) : Option Binary64 :=
  ofRatio? (x.ratio.1 * y.ratio.1) (x.ratio.2 * y.ratio.2)

/-- The quotient of two sizes, rounded; the divisor is not zero. -/
def div? (x y : Binary64) : Option Binary64 :=
  ofRatio? (x.ratio.1 * y.ratio.2) (x.ratio.2 * y.ratio.1)

/-- The double nearest to a power of ten. -/
def tenTo (k : Nat) : Binary64 := ofNat (Nat.pow 10 k)

/-- The whole part of the size. -/
def floor (x : Binary64) : Nat := x.ratio.1 / x.ratio.2

def isPositive (x : Binary64) : Bool := !x.negative && !x.isZero

/-- Divides a size by a power of ten, in steps of at most 10 ^ 308: each step rounds. -/
def scaleDown (x : Binary64) (k : Nat) : Binary64 :=
  if k ≤ 308 then (x.div? (tenTo k)).getD zero
  else if x.isZero then x
  else scaleDown ((x.div? (tenTo 308)).getD zero) (k - 308)
termination_by k

/-- The double that a reader makes of `significand · 10 ^ exponent`: the significand is rounded, then
multiplied or divided by a power of ten and rounded again. -/
def ofDecimal? (significand : Nat) (exponent : Int) : Option Binary64 :=
  let x := ofNat significand
  if exponent < 0 then some (x.scaleDown exponent.natAbs)
  else if exponent ≤ 308 then x.mul? (tenTo exponent.natAbs)
  else if x.isZero then some x else none

end Binary64

theorem roundQuotient_mul_self {den : Nat} (h : 0 < den) (q : Nat) :
    roundQuotient (q * den) den = q := by
  simp [roundQuotient, Nat.mul_div_cancel _ h, h]

end PageSweep.Number
