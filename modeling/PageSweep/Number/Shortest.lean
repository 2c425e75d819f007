import PageSweep.Number.Binary64

/-!
# The shortest decimal of a double

A double is written with the fewest digits that read back as it. The reals that round to `m · 2 ^ e` form
an interval, whose ends belong to it when `m` is even. On the grid of decimals with one digit, with two,
and so on, only the two neighbours of the value can lie in it; the first grid with a hit wins, and of two
hits the nearer one.

The digits are then set positionally for exponents from -5 to 15 and with an exponent otherwise.
-/

namespace PageSweep.Number

/-- Decimal digits, the first one of weight `10 ^ exponent`. -/
structure Decimal where
  digits : List Char
  exponent : Int
deriving DecidableEq, Repr

/-- How digits are set as text. -/
structure DecimalFormat where
  /-- The least and the greatest exponent written without one. -/
  positional : Int × Int
  /-- What a whole number ends with when it is written positionally. -/
  whole : List Char

/-- Doubles in schemas: `1.0`, `0.00001`, `1e-6`, `1e+16`. -/
def schemaFormat : DecimalFormat := ⟨(-5, 15), ['.', '0']⟩

namespace Binary64

/-- The interval of the reals that round to a positive double, as numerators over a common denominator:
low end, value, high end, denominator. -/
def interval (x : Binary64) : Nat × Nat × Nat × Nat :=
  let e := x.exponent - 2
  let up := Nat.pow 2 e.toNat
  -- Below a power of two the doubles lie twice as close.
  let below := if x.mantissa = Nat.pow 2 52 ∧ x.exponent ≠ -1074 then 1 else 2
  ((4 * x.mantissa - below) * up, 4 * x.mantissa * up, (4 * x.mantissa + 2) * up, Nat.pow 2 (-e).toNat)

/-- The exponent of the first decimal digit of a positive quotient. -/
def leadingExponent (num den : Nat) : Int :=
  let reaches (k : Int) : Bool := Nat.pow 10 k.toNat * den ≤ num * Nat.pow 10 (-k).toNat
  -- The logarithm is known to a bit, which leaves three candidates.
  let k := ((Nat.log2 num : Int) - Nat.log2 den) * 30103 / 100000
  if reaches (k + 1) then k + 1 else if reaches k then k else k - 1

/-- The neighbour on the grid of `n` digits that lies in the interval, the nearer one of two. -/
def onGrid? (x : Binary64) (lead : Int) (n : Nat) : Option Nat :=
  let (lo, v, hi, den) := x.interval
  let step := lead + 1 - n
  let up := Nat.pow 10 step.toNat
  let down := Nat.pow 10 (-step).toNat
  let scale (p : Nat) := p * up * den
  let d := v * down / (up * den)
  let inside (p : Nat) : Bool :=
    if x.mantissa % 2 = 0 then lo * down ≤ scale p && scale p ≤ hi * down
    else lo * down < scale p && scale p < hi * down
  let belowGap := v * down - scale d
  let aboveGap := scale (d + 1) - v * down
  if inside d && inside (d + 1) then
    if belowGap < aboveGap || (belowGap == aboveGap && d % 2 == 0) then some d else some (d + 1)
  else if inside d then some d
  else if inside (d + 1) then some (d + 1)
  else none

/-- The first grid from `n` digits on, of `fuel` grids, that has a hit. -/
def firstGrid (x : Binary64) (lead : Int) : Nat → Nat → Nat × Nat
  | 0, n => ((x.onGrid? lead n).getD 0, n)
  | fuel + 1, n =>
    match x.onGrid? lead n with
    | some d => (d, n)
    | none => firstGrid x lead fuel (n + 1)

/-- The shortest decimal that reads back; 17 digits always do. -/
def shortest (x : Binary64) : Decimal :=
  if x.isZero then ⟨['0'], 0⟩
  else
    let (_, v, _, den) := x.interval
    let lead := leadingExponent v den
    let (d, n) := x.firstGrid lead 16 1
    let ds := digits d
    let kept := (ds.reverse.dropWhile (· == '0')).reverse
    ⟨kept, lead + ds.length - n⟩

end Binary64

/-- Sets the digits of a decimal as text. -/
def Decimal.text (f : DecimalFormat) (x : Decimal) : List Char :=
  let n := x.digits.length
  if f.positional.1 ≤ x.exponent ∧ x.exponent ≤ f.positional.2 then
    if x.exponent < 0 then
      '0' :: '.' :: List.replicate (x.exponent.natAbs - 1) '0' ++ x.digits
    else
      let whole := x.exponent.natAbs + 1
      if n ≤ whole then x.digits ++ List.replicate (whole - n) '0' ++ f.whole
      else x.digits.take whole ++ '.' :: x.digits.drop whole
  else
    let mantissa := match x.digits with
      | [] => []
      | [d] => [d]
      | d :: ds => d :: '.' :: ds
    let sign := if x.exponent < 0 then '-' else '+'
    mantissa ++ 'e' :: sign :: Number.digits x.exponent.natAbs

/-- A double as schema text. -/
def Binary64.text (x : Binary64) : String :=
  let body := x.shortest.text schemaFormat
  String.ofList (if x.negative then '-' :: body else body)

end PageSweep.Number
