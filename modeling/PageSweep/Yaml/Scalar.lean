import PageSweep.Number.Binary64

/-!
# What a plain scalar would be taken for

A plain scalar can mean the absent value, a truth value or a number; a text can be written plain only if it
does not read as one of them. Numbers are decimal, with or without a fraction and an exponent, or whole ones
with a base mark; a number beyond the doubles is no number.
-/

namespace PageSweep.Yaml

open Number

/-- Spellings of the absent value. -/
def nullWords : List String := ["~", "null", "Null", "NULL"]

def trueWords : List String := ["true", "True", "TRUE"]

def falseWords : List String := ["false", "False", "FALSE"]

/-- The truth value of a text. -/
def flagOf? (s : String) : Option Bool :=
  if trueWords.contains s then some true else if falseWords.contains s then some false else none

/-- The number that a text names in a base, if it is digits of that base and nothing else. -/
def basedDigits? (base : Nat) (cs : List Char) : Option Nat :=
  let value? (c : Char) : Option Nat :=
    (if c.isDigit then some (digitValue c)
     else if 'a' ≤ c ∧ c ≤ 'z' then some (c.toNat - 'a'.toNat + 10)
     else if 'A' ≤ c ∧ c ≤ 'Z' then some (c.toNat - 'A'.toNat + 10)
     else none).filter (· < base)
  if cs.isEmpty then none
  else cs.foldl (fun n? c => n?.bind fun n => (value? c).map (n * base + ·)) (some 0)

/-- The count a text says: decimal without zeros in front, or with a base mark, perhaps after a plus sign. -/
def countOf? (s : String) : Option Nat :=
  let body := match s.toList with
    | '+' :: r => r
    | r => r
  match body with
  | '0' :: 'x' :: r => basedDigits? 16 r
  | '0' :: 'o' :: r => basedDigits? 8 r
  | '0' :: 'b' :: r => basedDigits? 2 r
  | ['0'] => some 0
  | '0' :: _ => none
  | r => readDigits? r

/-- Digits after zeros, which read as text but are quoted all the same. -/
def isZeroPadded (cs : List Char) : Bool :=
  let body := match cs with
    | '-' :: r => r
    | '+' :: r => r
    | r => r
  match body with
  | '0' :: d :: ds => (d :: ds).all Char.isDigit
  | _ => false

/-- A whole number with a base mark, of at most 128 bits. -/
def isBasedNumber (cs : List Char) : Bool :=
  let (negative, body) := match cs with
    | '-' :: r => (true, r)
    | '+' :: r => (false, r)
    | r => (false, r)
  let n? := match body with
    | '0' :: 'x' :: r => basedDigits? 16 r
    | '0' :: 'o' :: r => basedDigits? 8 r
    | '0' :: 'b' :: r => basedDigits? 2 r
    | _ => none
  n?.any fun n => if negative then n ≤ Nat.pow 2 127 else n < Nat.pow 2 128

/-- The digits before and after the point and the exponent of a decimal. -/
def decimalParts? (cs : List Char) : Option (List Char × List Char × Int) :=
  let whole := cs.takeWhile Char.isDigit
  let rest := cs.dropWhile Char.isDigit
  let (fraction, rest) := match rest with
    | '.' :: r => (r.takeWhile Char.isDigit, r.dropWhile Char.isDigit)
    | r => ([], r)
  if whole.isEmpty && fraction.isEmpty then none
  else
    let exponent (r : List Char) : Option (List Char × List Char × Int) :=
      match r with
      | '-' :: ds => (readDigits? ds).map fun n => (whole, fraction, -(n : Int))
      | '+' :: ds => (readDigits? ds).map fun n => (whole, fraction, (n : Int))
      | ds => (readDigits? ds).map fun n => (whole, fraction, (n : Int))
    match rest with
    | [] => some (whole, fraction, 0)
    | 'e' :: r => exponent r
    | 'E' :: r => exponent r
    | _ => none

/-- Whether a decimal lies within the doubles. -/
def isDoubleDecimal (cs : List Char) : Bool :=
  let body := match cs with
    | '-' :: r => r
    | '+' :: r => r
    | r => r
  match decimalParts? body with
  | none => false
  | some (whole, fraction, exponent) =>
    let n := ofDigits 10 (whole ++ fraction)
    let scale := exponent - fraction.length
    let width : Int := (digits n).length
    if n = 0 || width + scale < 0 then true
    else if 310 < width + scale then false
    else (Binary64.ofRatio? (n * Nat.pow 10 scale.toNat) (Nat.pow 10 (-scale).toNat)).isSome

/-- Names of infinity and of no number. -/
def numberNames : List String :=
  [".inf", ".Inf", ".INF", "+.inf", "+.Inf", "+.INF", "-.inf", "-.Inf", "-.INF", ".nan", ".NaN", ".NAN"]

/-- Whether a text would be taken for something else when it is written plain. -/
def readsOtherwise (s : String) : Bool :=
  let cs := s.toList
  s.isEmpty || nullWords.contains s || trueWords.contains s || falseWords.contains s ||
    numberNames.contains s || isZeroPadded cs || isBasedNumber cs || isDoubleDecimal cs

end PageSweep.Yaml
