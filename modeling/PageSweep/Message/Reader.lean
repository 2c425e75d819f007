import PageSweep.Message.Basic
import PageSweep.Record.Reader

/-!
# Reading messages

A message on the wire is an object with its name under `action`, wherever that stands, or a list with the
name first. The name is read as the text goes by, so a fault in it has a place; what belongs to the name is
looked at when all is read, so a mismatch there has none.
-/

namespace PageSweep.Message

open Number Json

inductive Kind where
  | updateCounter
  | clearAllCookies
  | resetCounter
deriving DecidableEq, Repr

/-- What comes with the name: the further items of a list, or the other fields of an object as they stand. -/
inductive Body where
  | items (vs : List Json)
  | fields (fs : List (String × Json))

def kindNames : List String := ["updateCounter", "clearAllCookies", "resetCounter"]

def kindOf? : String → Option Kind
  | "updateCounter" => some .updateCounter
  | "clearAllCookies" => some .clearAllCookies
  | "resetCounter" => some .resetCounter
  | _ => none

/-! ### What belongs to a name -/

def countOf (v : Json) : Except Mismatch Nat := (Datum.ofJson v).asCount maxCount "u64"

/-- A list with more items than a message takes. -/
def tooMany {α : Type} (length taken : Nat) : Except Mismatch α :=
  .error (.wrongLength length
    (natText taken ++ (if taken = 1 then " element" else " elements") ++ " in sequence"))

/-- The count among fields, after one that was found already or not. -/
def countAmong (found? : Option Nat) : List (String × Json) → Except Mismatch Nat
  | [] => match found? with
    | some n => .ok n
    | none => .error (.missing "count")
  | (k, v) :: fs =>
    if k = "count" then
      if found?.isSome then .error (.duplicate "count")
      else match countOf v with
        | .ok n => countAmong (some n) fs
        | .error m => .error m
    else countAmong found? fs

/-- The message of a name and what comes with it. -/
def ofBody (kind : Kind) (body : Body) : Except Mismatch Message :=
  match kind, body with
  | .updateCounter, .fields fs => (countAmong none fs).map updateCounter
  | .updateCounter, .items [] =>
    .error (.wrongLength 0 "struct variant Message::UpdateCounter with 1 element")
  | .updateCounter, .items (v :: vs) => do
    let n ← countOf v
    if vs.isEmpty then return updateCounter n else tooMany (vs.length + 1) 1
  | .clearAllCookies, .fields _ => .ok clearAllCookies
  | .resetCounter, .fields _ => .ok resetCounter
  | .clearAllCookies, .items vs => if vs.isEmpty then .ok clearAllCookies else tooMany vs.length 0
  | .resetCounter, .items vs => if vs.isEmpty then .ok resetCounter else tooMany vs.length 0

/-! ### Reading -/

/-- Reads the name of a message. -/
def readKind (fuel : Nat) (cs : List Char) : Except Fault (Kind × List Char) :=
  let expected := "variant identifier"
  match skipSpace cs with
  | '[' :: r => Shape.mismatchAt (.wrongType .list expected) ('[' :: r)
  | '\x7b' :: r => Shape.mismatchAt (.wrongType .map expected) ('\x7b' :: r)
  | r => do
    let (v, r) ← readValue fuel 0 r
    match v with
    | .str name => match kindOf? name with
      | some kind => return (kind, r)
      | none => Shape.mismatchAt (.unknownVariant name kindNames) r
    | v => Shape.mismatchAt (.wrongType (Datum.ofJson v).found expected) r

/-- Reads the items after the name; those read stand in reverse order. -/
def readMore (room : Nat) : Nat → List Json → List Char → Except Fault (Body × List Char)
  | 0, _, cs => faultAt .tooDeep cs
  | fuel + 1, got, cs => do
    let (more, r) ← nextItem false cs
    if more then
      let (v, r) ← readValue fuel room r
      readMore room fuel (v :: got) r
    else return (.items got.reverse, r)

/-- Reads fields up to the end, after a name that was found already or not. -/
def readFields (room : Nat) : Nat → Bool → Option Kind → List (String × Json) → List Char →
    Except Fault ((Kind × Body) × List Char)
  | 0, _, _, _, cs => faultAt .tooDeep cs
  | fuel + 1, first, kind?, got, cs => do
    let (more, r) ← nextField first cs
    if more then
      let (k, r) ← readString r
      if k = "action" then
        if kind?.isSome then Shape.mismatchAt (.duplicate "action") (Shape.leaveObject r)
        else
          let (kind, r) ← readKind fuel (← readColon r)
          readFields room fuel false (some kind) got r
      else
        let (v, r) ← readValue fuel room (← readColon r)
        readFields room fuel false kind? ((k, v) :: got) r
    else match kind? with
      | some kind => return ((kind, .fields got.reverse), r)
      | none => Shape.mismatchAt (.missing "action") r

/-- Reads a name with what comes with it. -/
def readTagged (fuel : Nat) (cs : List Char) : Except Fault ((Kind × Body) × List Char) :=
  match skipSpace cs with
  | '\x7b' :: r => readFields (depthLimit - 1) fuel true none [] r
  | '[' :: r => do
    let (more, r) ← nextItem true r
    if more then
      let (kind, r) ← readKind fuel r
      let (body, r) ← readMore (depthLimit - 1) fuel [] r
      return ((kind, body), r)
    else Shape.mismatchAt (.missing "action") r
  | r => do
    let (v, r) ← readValue fuel 0 r
    Shape.mismatchAt (.wrongType (Datum.ofJson v).found "internally tagged enum Message") r

/-- Reads a message from JSON text. What follows it is looked at last. -/
def read (text : String) : Except Json.Error Message :=
  let cs := text.toList
  match readTagged (stepsFor cs) cs with
  | .error f => .error (f.locate cs)
  | .ok ((kind, body), r) =>
    match ofBody kind body with
    | .error m => .error (.ofMismatch m)
    | .ok m => match skipSpace r with
      | [] => .ok m
      | r => .error (Fault.locate cs ⟨.trailingCharacters, r, 1⟩)

end PageSweep.Message
