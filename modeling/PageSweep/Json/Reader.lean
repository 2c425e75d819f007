import PageSweep.Json.Fault

/-!
# Reading JSON

A reader over the characters of a text, one small function for each form. Lists and objects may be nested
127 deep. Of two fields with one key the last stays.

A number without fraction and exponent that fits into 64 bits is kept exact; otherwise its digits go into a
64-bit significand as long as they fit, and the significand is scaled by a power of ten.

* `read_eq_value`: a text reads as a value iff the value is followed by blanks only.
-/

namespace PageSweep.Json

open Number Text

/-- The levels of lists and objects that a text may have. -/
def depthLimit : Nat := 127

def isJsonSpace (c : Char) : Bool := c == ' ' || c == '\n' || c == '\t' || c == '\r'

def skipSpace (cs : List Char) : List Char := cs.dropWhile isJsonSpace

/-- Reads the letters of a fixed word. -/
def readWord : List Char → List Char → Except Fault (List Char)
  | [], cs => .ok cs
  | _ :: _, [] => faultAt .endInValue []
  | w :: ws, c :: cs => if w = c then readWord ws cs else faultNext .expectedIdent (c :: cs)

/-! ### Numbers -/

/-- Digits gathered into a 64-bit significand while they fit: significand, digits taken, rest. -/
def gather (significand taken : Nat) : List Char → Nat × Nat × List Char
  | [] => (significand, taken, [])
  | c :: cs =>
    let n := significand * 10 + digitValue c
    if c.isDigit && n ≤ maxCount then gather n (taken + 1) cs else (significand, taken, c :: cs)

/-- The double of a signed decimal. -/
def signedDouble (negative : Bool) (significand : Nat) (exponent : Int) (rest : List Char) :
    Except Fault (Json × List Char) :=
  match Binary64.ofDecimal? significand exponent with
  | some x => .ok (double (if negative then x.neg else x), rest)
  | none => faultAt .numberOutOfRange rest

/-- The greatest exponent that is added up. -/
def maxExponent : Nat := Nat.pow 2 31 - 1

/-- Exponent digits while they fit into 31 bits: exponent, rest. -/
def gatherExponent (e : Nat) : List Char → Nat × List Char
  | [] => (e, [])
  | c :: cs =>
    let n := e * 10 + digitValue c
    if c.isDigit && n ≤ maxExponent then gatherExponent n cs else (e, c :: cs)

/-- Reads what follows the letter of an exponent. -/
def readExponent (negative : Bool) (significand : Nat) (scale : Int) (cs : List Char) :
    Except Fault (Json × List Char) :=
  let (down, cs) := match cs with
    | '+' :: r => (false, r)
    | '-' :: r => (true, r)
    | r => (false, r)
  match cs with
  | [] => faultAt .endInValue []
  | c :: r =>
    if !c.isDigit then faultNext .invalidNumber (c :: r)
    else
      let (e, r) := gatherExponent (digitValue c) r
      match r with
      | d :: r' =>
        if d.isDigit then
          -- Digits are left over, so the exponent is beyond 31 bits: too large, or so small that it is zero.
          if significand ≠ 0 ∧ !down then faultAt .numberOutOfRange r'
          else .ok (double (if negative then Binary64.zero.neg else .zero), r.dropWhile Char.isDigit)
        else signedDouble negative significand (if down then scale - e else scale + e) r
      | [] => signedDouble negative significand (if down then scale - e else scale + e) r

/-- Reads what follows the digits of a decimal: perhaps an exponent. -/
def readScaled (negative : Bool) (significand : Nat) (scale : Int) (cs : List Char) :
    Except Fault (Json × List Char) :=
  match cs with
  | 'e' :: r => readExponent negative significand scale r
  | 'E' :: r => readExponent negative significand scale r
  | r => signedDouble negative significand scale r

/-- Reads what follows the point of a decimal; digits beyond the significand are dropped. -/
def readFraction (negative : Bool) (significand : Nat) (scale : Int) (cs : List Char) :
    Except Fault (Json × List Char) :=
  let (n, taken, r) := gather significand 0 cs
  let r' := r.dropWhile Char.isDigit
  if taken = 0 ∧ r'.length = r.length then
    if r.isEmpty then faultNext .endInValue r else faultNext .invalidNumber r
  else readScaled negative n (scale - taken) r'

/-- A whole number: exact if it is in range, otherwise a double; so is the negative zero. -/
def wholeNumber (negative : Bool) (n : Nat) : Json :=
  if !negative then int n
  else if n = 0 ∨ Nat.pow 2 63 < n then double (Binary64.ofNat n).neg
  else int (-(n : Int))

/-- Reads a number after its sign. -/
def readNumber (negative : Bool) (cs : List Char) : Except Fault (Json × List Char) :=
  match cs with
  | [] => faultAt .endInValue []
  | c :: r =>
    if !c.isDigit then faultNext .invalidNumber (c :: r)
    else
      let (n, _, r) := if c = '0' then (0, 0, r) else gather (digitValue c) 0 r
      -- Digits that no longer fit into the significand only count as places.
      let dropped := r.takeWhile Char.isDigit
      let r' := r.dropWhile Char.isDigit
      if c = '0' ∧ !dropped.isEmpty then faultNext .invalidNumber r
      else match r' with
        | '.' :: t => readFraction negative n dropped.length t
        | 'e' :: t => readExponent negative n dropped.length t
        | 'E' :: t => readExponent negative n dropped.length t
        | t => if dropped.isEmpty then .ok (wholeNumber negative n, t)
               else signedDouble negative n dropped.length t

/-! ### Strings -/

def hexValue? (c : Char) : Option Nat :=
  if c.isDigit then some (digitValue c)
  else if 'a' ≤ c ∧ c ≤ 'f' then some (c.toNat - 'a'.toNat + 10)
  else if 'A' ≤ c ∧ c ≤ 'F' then some (c.toNat - 'A'.toNat + 10)
  else none

/-- Reads the four digits of a code unit. -/
def readUnit (cs : List Char) : Except Fault (Nat × List Char) :=
  -- Four bytes are taken at once, so a text that ends before is cut short even if it holds no digits.
  if byteLength (cs.take 4) < 4 then faultAt .endInString []
  else match cs with
    | a :: b :: c :: d :: r =>
      match hexValue? a, hexValue? b, hexValue? c, hexValue? d with
      | some a, some b, some c, some d => .ok (((a * 16 + b) * 16 + c) * 16 + d, r)
      | _, _, _, _ => .error ⟨.invalidEscape, cs, 4⟩
    | _ => .error ⟨.invalidEscape, cs, 4⟩

/-- Reads the second code unit of a character beyond 16 bits, with the backslash before it. -/
def readLowUnit (high : Nat) (cs : List Char) : Except Fault (Char × List Char) :=
  match cs with
  | [] => faultAt .endInString []
  | ['\\'] => faultAt .endInString []
  | '\\' :: 'u' :: r => do
    let (low, r) ← readUnit r
    if 0xDC00 ≤ low ∧ low ≤ 0xDFFF then
      .ok (Char.ofNat (0x10000 + (high - 0xD800) * 0x400 + (low - 0xDC00)), r)
    else faultAt .loneSurrogate r
  | '\\' :: r => faultNext .endOfEscape r
  | r => faultNext .endOfEscape r

/-- Reads an escape after its backslash. -/
def readEscape (cs : List Char) : Except Fault (Char × List Char) :=
  match cs with
  | [] => faultAt .endInString []
  | '"' :: r => .ok ('"', r)
  | '\\' :: r => .ok ('\\', r)
  | '/' :: r => .ok ('/', r)
  | 'b' :: r => .ok ('\x08', r)
  | 'f' :: r => .ok ('\x0c', r)
  | 'n' :: r => .ok ('\n', r)
  | 'r' :: r => .ok ('\r', r)
  | 't' :: r => .ok ('\t', r)
  | 'u' :: r => do
    let (unit, r) ← readUnit r
    if 0xDC00 ≤ unit ∧ unit ≤ 0xDFFF then faultAt .loneSurrogate r
    else if 0xD800 ≤ unit ∧ unit ≤ 0xDBFF then readLowUnit unit r
    else .ok (Char.ofNat unit, r)
  | r => faultNext .invalidEscape r

/-- Reads the characters of a string up to its closing quote; at most `fuel` of them. -/
def readChars : Nat → List Char → List Char → Except Fault (String × List Char)
  | 0, _, cs => faultAt .endInString cs
  | fuel + 1, read, cs =>
    match cs with
    | [] => faultAt .endInString []
    | '"' :: r => .ok (String.ofList read.reverse, r)
    | '\\' :: r =>
      match readEscape r with
      | .ok (c, r) => readChars fuel (c :: read) r
      | .error e => .error e
    | c :: r =>
      if c.toNat < 32 then faultNext .controlCharacter (c :: r) else readChars fuel (c :: read) r

/-- Reads a string after its opening quote. -/
def readString (cs : List Char) : Except Fault (String × List Char) := readChars (cs.length + 1) [] cs

/-! ### Values -/

/-- What stands before an item of a list: whether one follows, and where it starts. -/
def nextItem (first : Bool) (cs : List Char) : Except Fault (Bool × List Char) :=
  match skipSpace cs with
  | [] => faultNext .endInList []
  | ']' :: r => .ok (false, r)
  | c :: r =>
    if first then .ok (true, c :: r)
    else if c ≠ ',' then faultNext .expectedListEnd (c :: r)
    else match skipSpace r with
      | [] => faultNext .endInValue []
      | ']' :: r => faultNext .trailingComma (']' :: r)
      | r => .ok (true, r)

/-- What stands before a field of an object: whether one follows, and the text after its opening quote. -/
def nextField (first : Bool) (cs : List Char) : Except Fault (Bool × List Char) :=
  match skipSpace cs with
  | [] => faultNext .endInObject []
  | '\x7d' :: r => .ok (false, r)
  | c :: r =>
    if first then
      if c = '"' then .ok (true, r) else faultNext .keyNotString (c :: r)
    else if c ≠ ',' then faultNext .expectedObjectEnd (c :: r)
    else match skipSpace r with
      | [] => faultNext .endInValue []
      | '"' :: r => .ok (true, r)
      | '\x7d' :: r => faultNext .trailingComma ('\x7d' :: r)
      | r => faultNext .keyNotString r

/-- Reads the colon between a key and its value. -/
def readColon (cs : List Char) : Except Fault (List Char) :=
  match skipSpace cs with
  | ':' :: r => .ok r
  | [] => faultNext .endInObject []
  | r => faultNext .expectedColon r

mutual
/-- Reads a value, in which `room` more levels may be opened. -/
def readValue : Nat → Nat → List Char → Except Fault (Json × List Char)
  | 0, _, cs => faultAt .tooDeep cs
  | fuel + 1, room, cs =>
    match skipSpace cs with
    | [] => faultNext .endInValue []
    | 'n' :: r => do return (null, ← readWord ['u', 'l', 'l'] r)
    | 't' :: r => do return (bool true, ← readWord ['r', 'u', 'e'] r)
    | 'f' :: r => do return (bool false, ← readWord ['a', 'l', 's', 'e'] r)
    | '-' :: r => readNumber true r
    | '"' :: r => do
      let (s, r) ← readString r
      return (str s, r)
    | '[' :: r =>
      match room with
      | 0 => faultNext .tooDeep ('[' :: r)
      | room + 1 => readItems fuel room [] r
    | '\x7b' :: r =>
      match room with
      | 0 => faultNext .tooDeep ('\x7b' :: r)
      | room + 1 => readFields fuel room none [] r
    | c :: r => if c.isDigit then readNumber false (c :: r) else faultNext .expectedValue (c :: r)

/-- Reads the items of a list up to its end; those read stand in reverse order. -/
def readItems : Nat → Nat → List Json → List Char → Except Fault (Json × List Char)
  | 0, _, _, cs => faultAt .tooDeep cs
  | fuel + 1, room, read, cs => do
    let (more, r) ← nextItem read.isEmpty cs
    if more then
      let (v, r) ← readValue fuel room r
      readItems fuel room (v :: read) r
    else return (arr read.reverse, r)

/-- Reads the fields of an object up to its end, after the last key read so far. -/
def readFields : Nat → Nat → Option String → List (String × Json) → List Char →
    Except Fault (Json × List Char)
  | 0, _, _, _, cs => faultAt .tooDeep cs
  | fuel + 1, room, last, read, cs => do
    let (more, r) ← nextField last.isNone cs
    if more then
      let (k, r) ← readString r
      let r ← readColon r
      let (v, r) ← readValue fuel room r
      readFields fuel room (some k) (Entries.insert k v read) r
    else return (obj read, r)
end

/-- The steps that suffice for a text: two for each character. -/
def stepsFor (cs : List Char) : Nat := 2 * cs.length + 2

/-- Reads a text that is one value with nothing but blanks around it. -/
def readAll {α : Type} (step : Step α) (cs : List Char) : Except Error α :=
  match step cs with
  | .error f => .error (f.locate cs)
  | .ok (v, r) =>
    match skipSpace r with
    | [] => .ok v
    | r => .error (Fault.locate cs ⟨.trailingCharacters, r, 1⟩)

/-- Reads a value from the characters of a text. -/
def readList (cs : List Char) : Except Error Json := readAll (readValue (stepsFor cs) depthLimit) cs

/-- Reads a value from a text. -/
def read (text : String) : Except Error Json := readList text.toList

theorem read_eq_value {text : String} {v : Json} :
    read text = .ok v ↔
      ∃ r, readValue (stepsFor text.toList) depthLimit text.toList = .ok (v, r) ∧
        skipSpace r = [] := by
  unfold read readList readAll
  split
  · rename_i h; simp [h]
  · rename_i w r h
    split
    · rename_i hr
      simp only [h, Except.ok.injEq, Prod.mk.injEq]
      exact ⟨fun hv => ⟨r, ⟨hv, rfl⟩, hr⟩, fun ⟨_, ⟨hv, _⟩, _⟩ => hv⟩
    · rename_i r' hr hne
      have : ¬ skipSpace r = [] := fun hn => hne hn
      simp only [h, Except.ok.injEq, Prod.mk.injEq, reduceCtorEq, false_iff]
      rintro ⟨_, ⟨_, rfl⟩, hs⟩
      exact this hs

end PageSweep.Json
