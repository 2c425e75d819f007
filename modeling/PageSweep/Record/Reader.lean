import PageSweep.Json.Reader
import PageSweep.Record.Shape

/-!
# Reading a record from JSON text

A record is read field by field as its text goes by, so that the first fault of the text wins, be it one of
the notation or a value of the wrong form. A value under a name that the shape does not have is passed over,
however deep it is.

A mismatch that concerns an object as a whole is placed after the object, if it ends there.
-/

namespace PageSweep.Shape

open Number Json

/-! ### Passing over a value -/

/-- Passes over a string after its opening quote. -/
def skipString : Nat → List Char → Except Fault (List Char)
  | 0, cs => faultAt .endInString cs
  | fuel + 1, cs =>
    match cs with
    | [] => faultAt .endInString []
    | '"' :: r => .ok r
    | '\\' :: 'u' :: r => do
      let (_, r) ← readUnit r
      skipString fuel r
    | '\\' :: r => do
      let (_, r) ← readEscape r
      skipString fuel r
    | c :: r => if c.toNat < 32 then faultAt .controlCharacter (c :: r) else skipString fuel r

/-- Passes over the digits of an exponent, after its letter. -/
def skipExponent (cs : List Char) : Except Fault (List Char) :=
  let cs := match cs with
    | '+' :: r => r
    | '-' :: r => r
    | r => r
  match cs with
  | [] => faultAt .invalidNumber []
  | c :: r => if c.isDigit then .ok (r.dropWhile Char.isDigit) else faultNext .invalidNumber (c :: r)

/-- Passes over a number after its sign; its size does not matter. -/
def skipNumber (cs : List Char) : Except Fault (List Char) :=
  match cs with
  | [] => faultAt .invalidNumber []
  | c :: r =>
    if !c.isDigit then faultNext .invalidNumber (c :: r)
    else
      let r' := r.dropWhile Char.isDigit
      if c = '0' ∧ r'.length < r.length then faultNext .invalidNumber r
      else match r' with
        | 'e' :: t => skipExponent t
        | 'E' :: t => skipExponent t
        | '.' :: t =>
          let t' := t.dropWhile Char.isDigit
          if t'.length = t.length then faultNext .invalidNumber t
          else match t' with
            | 'e' :: u => skipExponent u
            | 'E' :: u => skipExponent u
            | u => .ok u
        | t => .ok t

/-- What an open list or object needs before the next value: its key. -/
def skipKey (fuel : Nat) (isObject : Bool) (cs : List Char) : Except Fault (List Char) :=
  if !isObject then .ok cs
  else match skipSpace cs with
    | [] => faultNext .endInObject []
    | '"' :: r => do readColon (← skipString fuel r)
    | r => faultNext .keyNotString r

/-- Leaves lists and objects that end here, up to a comma: what stays open, and the text after the comma. -/
def skipEnds : Nat → List Bool → List Char → Except Fault (List Bool × List Char)
  | 0, open_, cs => .ok (open_, cs)
  | _, [], cs => .ok ([], cs)
  | fuel + 1, isObject :: open_, cs =>
    match skipSpace cs with
    | [] => faultNext (if isObject then .endInObject else .endInList) []
    | ',' :: r => .ok (isObject :: open_, r)
    | c :: r =>
      if c = (if isObject then '\x7d' else ']') then skipEnds fuel open_ r
      else faultNext (if isObject then .expectedObjectEnd else .expectedListEnd) (c :: r)

/-- Passes over a value inside the lists and objects that are open, the innermost first. -/
def skipValue : Nat → List Bool → List Char → Except Fault (List Char)
  | 0, _, cs => .ok cs
  | fuel + 1, open_, cs =>
    let leaf (r : List Char) : Except Fault (List Char) := do
      match ← skipEnds fuel open_ r with
      | ([], r) => return r
      | (isObject :: open_, r) =>
        let r ← skipKey fuel isObject r
        skipValue fuel (isObject :: open_) r
    let enter (isObject : Bool) (r : List Char) : Except Fault (List Char) :=
      match skipSpace r with
      | [] => faultNext (if isObject then .endInObject else .endInList) []
      | c :: r' =>
        if c = (if isObject then '\x7d' else ']') then leaf r'
        else do
          let r ← skipKey fuel isObject (c :: r')
          skipValue fuel (isObject :: open_) r
    match skipSpace cs with
    | [] => faultNext .endInValue []
    | 'n' :: r => do leaf (← readWord ['u', 'l', 'l'] r)
    | 't' :: r => do leaf (← readWord ['r', 'u', 'e'] r)
    | 'f' :: r => do leaf (← readWord ['a', 'l', 's', 'e'] r)
    | '-' :: r => do leaf (← skipNumber r)
    | '"' :: r => do leaf (← skipString fuel r)
    | '[' :: r => enter false r
    | '\x7b' :: r => enter true r
    | c :: r => if c.isDigit then do leaf (← skipNumber (c :: r)) else faultNext .expectedValue (c :: r)

/-! ### Reading by shape -/

/-- Leaves an object after a mismatch in it, if it ends here. -/
def leaveObject (cs : List Char) : List Char :=
  match skipSpace cs with
  | '\x7d' :: r => r
  | r => r

/-- The end of a list of which all is read. -/
def endList (cs : List Char) : Except Fault (List Char) :=
  match skipSpace cs with
  | ']' :: r => .ok r
  | [] => faultNext .endInList []
  | ',' :: r => match skipSpace r with
    | ']' :: r => faultNext .trailingComma (']' :: r)
    | r => faultNext .trailingCharacters r
  | r => faultNext .trailingCharacters r

def mismatchAt {α : Type} (m : Mismatch) (rest : List Char) : Except Fault α := faultAt (.mismatch m) rest

/-- Reads a scalar where another one may be expected; a list or an object is not entered. -/
def readScalar (shape : Shape) (fuel : Nat) (cs : List Char) : Except Fault (Datum × List Char) := do
  match skipSpace cs with
  | [] => faultNext .endInValue []
  | '[' :: r => match shape.scalar (.list []) with
    | .error m => mismatchAt m ('[' :: r)
    | .ok v => return (v, r)
  | '\x7b' :: r => match shape.scalar (.map []) with
    | .error m => mismatchAt m ('\x7b' :: r)
    | .ok v => return (v, r)
  | r =>
    let (v, r) ← readValue fuel 0 r
    match shape.scalar (.ofJson v) with
    | .error m => mismatchAt m r
    | .ok v => return (v, r)

mutual
/-- Reads what a shape keeps of a text; `room` more levels may be opened. -/
def readText : Nat → Nat → Shape → List Char → Except Fault (Datum × List Char)
  | 0, _, _, cs => faultAt .tooDeep cs
  | fuel + 1, room, shape, cs =>
    match shape, skipSpace cs with
    | list item, '[' :: r =>
      match room with
      | 0 => faultNext .tooDeep ('[' :: r)
      | room + 1 => readItemsText fuel room item [] r
    | record title fields, '\x7b' :: r =>
      match room with
      | 0 => faultNext .tooDeep ('\x7b' :: r)
      | room + 1 => readFieldsText fuel room title fields true [] [] r
    | record title fields, '[' :: r =>
      match room with
      | 0 => faultNext .tooDeep ('[' :: r)
      | room + 1 => readPositionsText fuel room title fields fields [] r
    | shape, r => readScalar shape fuel r

def readItemsText : Nat → Nat → Shape → List Datum → List Char → Except Fault (Datum × List Char)
  | 0, _, _, _, cs => faultAt .tooDeep cs
  | fuel + 1, room, item, kept, cs => do
    let (more, r) ← nextItem kept.isEmpty cs
    if more then
      let (v, r) ← readText fuel room item r
      readItemsText fuel room item (v :: kept) r
    else return (.list kept.reverse, r)

def readFieldsText : Nat → Nat → String → Fields → Bool → List String → List (String × Datum) →
    List Char → Except Fault (Datum × List Char)
  | 0, _, _, _, _, _, _, cs => faultAt .tooDeep cs
  | fuel + 1, room, title, fields, first, present, kept, cs => do
    let (more, r) ← nextField first cs
    if more then
      let (k, r) ← readString r
      match field? fields k with
      | none =>
        -- A name that the shape does not have: only the notation matters.
        let r ← skipValue fuel [] (← readColon r)
        readFieldsText fuel room title fields false present kept r
      | some f =>
        if present.contains (fieldName f) then
          -- The value is not looked at any more.
          mismatchAt (.duplicate (fieldName f)) (leaveObject r)
        else
          let (v, r) ← readText fuel room f.2.2 (← readColon r)
          readFieldsText fuel room title fields false (fieldName f :: present)
            ((fieldName f, v) :: kept) r
    else match missing? fields present with
      | some name => mismatchAt (.missing name) r
      | none => return (.map kept.reverse, r)

def readPositionsText : Nat → Nat → String → Fields → Fields → List (String × Datum) →
    List Char → Except Fault (Datum × List Char)
  | 0, _, _, _, _, _, cs => faultAt .tooDeep cs
  | fuel + 1, room, title, all, rest, kept, cs =>
    match rest with
    | [] => do return (.map kept.reverse, ← endList cs)
    | f :: fs => do
      let (more, r) ← nextItem kept.isEmpty cs
      if more then
        let (v, r) ← readText fuel room f.2.2 r
        readPositionsText fuel room title all fs ((fieldName f, v) :: kept) r
      else match checkRest title all rest with
        | .error m => mismatchAt m r
        | .ok () => return (.map kept.reverse, r)
end

/-- Reads a text that is one record with nothing but blanks around it. -/
def read (shape : Shape) (text : String) : Except Json.Error Datum :=
  let cs := text.toList
  readAll (readText (stepsFor cs) depthLimit shape) cs

end PageSweep.Shape
