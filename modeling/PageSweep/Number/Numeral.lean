/-!
# Numerals

Whole numbers as decimal text: how they are written, and the two strict readers that directives, delays
and arguments go through. A sign may stand in front, nothing else, and a number out of range is no number.
-/

namespace PageSweep.Number

/-- The decimal digits of a number. -/
def digits (n : Nat) : List Char := Nat.toDigits 10 n

/-- A number as decimal text. -/
def natText (n : Nat) : String := String.ofList (digits n)

/-- An integer as decimal text. -/
def intText (n : Int) : String :=
  if n < 0 then String.ofList ('-' :: digits n.natAbs) else natText n.natAbs

def digitValue (c : Char) : Nat := c.toNat - '0'.toNat

/-- The number that digits write in a base, most significant first. -/
def ofDigits (base : Nat) (cs : List Char) : Nat := cs.foldl (fun n c => n * base + digitValue c) 0

/-- Reads a non-empty run of digits that fills the whole text. -/
def readDigits? (cs : List Char) : Option Nat :=
  if !cs.isEmpty && cs.all Char.isDigit then some (ofDigits 10 cs) else none

/-- The greatest 64-bit count. -/
def maxCount : Nat := Nat.pow 2 64 - 1

/-- Reads a count: digits, perhaps after a plus sign, at most `max`. -/
def readCount? (max : Nat) (cs : List Char) : Option Nat :=
  let n? := match cs with
    | '+' :: ds => readDigits? ds
    | ds => readDigits? ds
  n?.filter (· ≤ max)

/-- Reads a signed 64-bit integer: digits, perhaps after a sign. -/
def readInteger? (cs : List Char) : Option Int :=
  match cs with
  | '-' :: ds => (readDigits? ds).bind fun n => if n ≤ Nat.pow 2 63 then some (-(n : Int)) else none
  | ds => (readCount? (Nat.pow 2 63 - 1) ds).map Int.ofNat

/-- A number with zeros in front, at least `width` digits wide. -/
def padded (width n : Nat) : List Char :=
  let ds := digits n
  List.replicate (width - ds.length) '0' ++ ds

end PageSweep.Number
