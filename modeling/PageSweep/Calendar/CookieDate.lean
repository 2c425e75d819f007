import PageSweep.Calendar.Date
import PageSweep.Number.Numeral
import PageSweep.Text.Pieces

/-!
# Cookie dates

The dates of `expires` attributes. One form is written: `Thu, 01 Jan 1970 00:00:00 GMT`, a year beyond four
digits with its sign. Two forms are read: the one of mail headers, with zones, short years and comments,
and else the written one with `GMT` or `UTC` at its end taken off, and signs and short numbers allowed.

The day of the week, where it is given, has to be right. A sixtieth second counts as the fifty-ninth and a
whole second more, before the minute that follows.
-/

namespace PageSweep

open Number Text

/-- A moment in seconds from 1970, and nanoseconds beyond, more than a second's in a sixtieth second. -/
structure Instant where
  seconds : Int
  nanos : Nat
deriving DecidableEq, Repr

namespace Instant

def epoch : Instant := ⟨0, 0⟩

/-- Whether a moment is not after another. -/
def notAfter (a b : Instant) : Bool :=
  a.seconds < b.seconds || (a.seconds == b.seconds && a.nanos ≤ b.nanos)

/-- The moment so many milliseconds later. -/
def later (t : Instant) (ms : Nat) : Instant :=
  let nanos := t.nanos + ms % 1000 * 1000000
  ⟨t.seconds + (ms / 1000 + nanos / 1000000000 : Nat), nanos % 1000000000⟩

theorem seconds_le_later (t : Instant) (ms : Nat) : t.seconds ≤ (t.later ms).seconds := by
  simp only [later]; omega

end Instant

namespace CookieDate

def weekdayNames : List (List Char) :=
  ["Mon".toList, "Tue".toList, "Wed".toList, "Thu".toList, "Fri".toList, "Sat".toList, "Sun".toList]

def monthNames : List (List Char) :=
  ["Jan".toList, "Feb".toList, "Mar".toList, "Apr".toList, "May".toList, "Jun".toList,
    "Jul".toList, "Aug".toList, "Sep".toList, "Oct".toList, "Nov".toList, "Dec".toList]

/-- The years that a moment can have. -/
def minYear : Int := -262143

def maxYear : Int := 262142

def hasYear (date : Date) : Bool := minYear ≤ date.year && date.year ≤ maxYear

/-! ### Writing -/

def yearText (year : Int) : List Char :=
  if year < 0 then '-' :: padded 4 year.natAbs
  else if 9999 < year then '+' :: padded 4 year.natAbs
  else padded 4 year.natAbs

/-- The date of a moment in whole seconds. -/
def write (seconds : Int) : String :=
  let days := seconds / 86400
  let time := (seconds % 86400).toNat
  let date := Date.ofDays days
  String.ofList (
    weekdayNames.getD (Date.weekday days) [] ++ ", ".toList ++ padded 2 date.day ++ ' ' ::
    monthNames.getD (date.month - 1) [] ++ ' ' :: yearText date.year ++ ' ' ::
    padded 2 (time / 3600) ++ ':' :: padded 2 (time / 60 % 60) ++ ':' :: padded 2 (time % 60) ++
    " GMT".toList)

/-! ### Reading pieces -/

/-- Reads at least `least` and at most `most` digits. -/
def number? (least most : Nat) (cs : List Char) : Option (Nat × List Char) :=
  let ds := (cs.take most).takeWhile Char.isDigit
  let n := ofDigits 10 ds
  if ds.length < least || Nat.pow 2 63 ≤ n then none else some (n, cs.drop ds.length)

/-- Reads a name of three letters, whatever its case: its place in the list. -/
def name? (names : List (List Char)) (cs : List Char) : Option (Nat × List Char) :=
  let word := lowerList (cs.take 3)
  (names.findIdx? fun n => lowerList n == word).map fun i => (i, cs.drop 3)

/-- Passes over at least one blank. -/
def blanks? : List Char → Option (List Char)
  | [] => none
  | c :: cs => if isBlank c then some (trimFront cs) else none

def char? (mark : Char) : List Char → Option (List Char)
  | [] => none
  | c :: cs => if c = mark then some cs else none

/-- The moment of a date and a time at an offset in seconds, if there is one. -/
def moment? (weekday? : Option Nat) (year : Int) (month day hour minute second : Nat)
    (offset : Int) : Option Instant :=
  let date : Date := ⟨year, month, day⟩
  let days := date.toDays
  if !hasYear date || !date.isValid || 24 ≤ hour || 60 ≤ minute || 60 < second then
    none
  else if weekday?.any (· ≠ Date.weekday days) then none
  else
    -- The sixtieth second is the fifty-ninth with a second of nanoseconds on top.
    let time := hour * 3600 + minute * 60 + min second 59
    let seconds := days * 86400 + time - offset
    if hasYear (Date.ofDays (seconds / 86400)) then
      some ⟨seconds, if second = 60 then 1000000000 else 0⟩
    else none

/-! ### Mail dates -/

/-- Zones with a name, in hours. -/
def zoneHours? (name : List Char) : Option Int :=
  let zones : List (String × Int) := [("gmt", 0), ("ut", 0), ("edt", -4), ("est", -5), ("cdt", -5),
    ("cst", -6), ("mdt", -6), ("mst", -7), ("pdt", -7), ("pst", -8)]
  match zones.find? fun z => z.1.toList == lowerList name with
  | some z => some z.2
  | none => match lowerList name with
    -- A zone of one letter has no offset; J is no zone.
    | [c] => if c = 'j' then none else some 0
    | _ => none

/-- Reads a zone: its offset in seconds. -/
def zone? (cs : List Char) : Option (Int × List Char) :=
  let name := cs.takeWhile Char.isAlpha
  if !name.isEmpty then (zoneHours? name).map fun h => (h * 3600, cs.drop name.length)
  else
    let signed? := match cs with
      | '+' :: r => some (1, r)
      | '-' :: r => some ((-1 : Int), r)
      | _ => none
    signed?.bind fun (sign, r) =>
      match r with
      | a :: b :: c :: d :: r =>
        let minutes := ofDigits 10 [c, d]
        let offset := ofDigits 10 [a, b] * 3600 + minutes * 60
        if [a, b, c, d].all Char.isDigit && minutes < 60 && offset < 86400 then
          some (sign * offset, r)
        else none
      | _ => none

/-- Passes over the rest of a comment, so many parentheses deep. -/
def commentRest? : Nat → List Char → Option (List Char)
  | 0, cs => some cs
  | _ + 1, [] => none
  | depth + 1, '(' :: cs => commentRest? (depth + 2) cs
  | depth + 1, ')' :: cs => commentRest? depth cs
  | depth + 1, '\\' :: _ :: cs => commentRest? (depth + 1) cs
  | depth + 1, _ :: cs => commentRest? (depth + 1) cs

/-- Whether nothing but comments follows; `fuel` bounds their number. -/
def onlyComments : Nat → List Char → Bool
  | 0, cs => cs.isEmpty
  | fuel + 1, cs =>
    cs.isEmpty || (match trimFront cs with
      | '(' :: r => match commentRest? 1 r with
        | some r => onlyComments fuel r
        | none => false
      | _ => false)

/-- The weekday in front of a mail date, if one is there. -/
def leadingWeekday? (cs : List Char) : Option (Option Nat × List Char) :=
  match name? weekdayNames cs with
  | some (w, ',' :: r) => some (some w, r)
  | some _ => none
  | none => some (none, cs)

/-- Years of two digits lie between 1950 and 2049, years of three digits count from 1900. -/
def fullYear (digits year : Nat) : Int :=
  if digits = 2 then (if year < 50 then year + 2000 else year + 1900 : Nat)
  else if digits = 3 then (year + 1900 : Nat)
  else year

/-- Reads the date of a mail header. -/
def readMail? (text : List Char) : Option Instant := do
  let (weekday?, cs) ← leadingWeekday? (trimFront text)
  let (day, cs) ← number? 1 2 (trimFront cs)
  let cs ← blanks? cs
  let (month, cs) ← name? monthNames cs
  let cs ← blanks? cs
  -- How many digits a year has says which century is meant.
  let (year, cs') ← number? 2 cs.length cs
  let year := fullYear (cs.length - cs'.length) year
  let cs ← blanks? cs'
  let (hour, cs) ← number? 2 2 cs
  let cs ← char? ':' (trimFront cs)
  let (minute, cs) ← number? 2 2 (trimFront cs)
  let (second, cs) ← match char? ':' (trimFront cs) with
    | some r => number? 2 2 r
    | none => some (0, cs)
  let cs ← blanks? cs
  let (offset, cs) ← zone? cs
  if onlyComments cs.length cs then moment? weekday? year (month + 1) day hour minute second offset
  else none

/-! ### Plain dates -/

/-- Takes `GMT` off the front of a reversed text as often as it is there. -/
def dropGmt : List Char → List Char
  | 'T' :: 'M' :: 'G' :: r => dropGmt r
  | r => r

/-- Takes `UTC` off the front of a reversed text as often as it is there. -/
def dropUtc : List Char → List Char
  | 'C' :: 'T' :: 'U' :: r => dropUtc r
  | r => r

/-- A date without the zones at its end. -/
def withoutZone (text : List Char) : List Char :=
  trimList (dropUtc (dropGmt (trimList text).reverse)).reverse

/-- Reads a year: any digits after a sign, else at most four. -/
def year? (cs : List Char) : Option (Int × List Char) :=
  match trimFront cs with
  | '-' :: r => (number? 1 r.length r).map fun p => (-(p.1 : Int), p.2)
  | '+' :: r => (number? 1 r.length r).map fun p => ((p.1 : Int), p.2)
  | r => (number? 1 4 r).map fun p => ((p.1 : Int), p.2)

/-- Reads a date of the written form, without a zone. -/
def readPlain? (text : List Char) : Option Instant := do
  let (weekday, cs) ← name? weekdayNames (withoutZone text)
  let cs ← char? ',' cs
  let (day, cs) ← number? 1 2 (trimFront cs)
  let (month, cs) ← name? monthNames (trimFront cs)
  let (year, cs) ← year? cs
  let (hour, cs) ← number? 1 2 (trimFront cs)
  let cs ← char? ':' cs
  let (minute, cs) ← number? 1 2 (trimFront cs)
  let cs ← char? ':' cs
  let (second, cs) ← number? 1 2 (trimFront cs)
  if cs.isEmpty then moment? (some weekday) year (month + 1) day hour minute second 0 else none

/-- The moment of a cookie date. -/
def read? (text : String) : Option Instant := (readMail? text.toList).or (readPlain? text.toList)

end CookieDate

end PageSweep
