import PageSweep.Record.Datum

/-!
# Shapes of records

A `Shape` says what a field may hold. `Shape.check` compares data with a shape and returns what the shape
keeps of it: fields that the shape does not name are left out, a second name of a field is replaced by its
first one. A record may also be given as a list of its fields in order.

The first mismatch in the order of the data wins; missing fields are noticed last.
-/

namespace PageSweep

open Number

inductive Shape where
  | text
  | optionalText
  | flag
  /-- A count up to `max`, of the type a message calls `name`. -/
  | count (max : Nat) (name : String)
  /-- Two texts. -/
  | pair
  | list (item : Shape)
  | table (item : Shape)
  /-- A record that messages call `title`; a field has its names, the first one being its own, whether it
  must be there, and a shape. -/
  | record (title : String) (fields : List (List String × Bool × Shape))
  /-- The record around it once more. -/
  | again
deriving Inhabited

namespace Shape

abbrev Fields := List (List String × Bool × Shape)

/-- The field of a name. -/
def field? (fields : Fields) (name : String) : Option (List String × Bool × Shape) :=
  fields.find? (·.1.contains name)

def fieldName (f : List String × Bool × Shape) : String := f.1.headD ""

/-- The title of a record together with the number of its fields. -/
def sized (title : String) (fields : Fields) : String :=
  title ++ " with " ++ natText fields.length ++ (if fields.length = 1 then " element" else " elements")

/-- The first field that must be there and is not among the names read. -/
def missing? (fields : Fields) (present : List String) : Option String :=
  (fields.find? fun f => f.2.1 && !present.contains (fieldName f)).map fieldName

def scalar (shape : Shape) (d : Datum) : Except Mismatch Datum :=
  match shape with
  | text => d.asText.map .str
  | optionalText => d.asOptionalText.map fun s? => match s? with
    | some s => .str s
    | none => .null
  | flag => d.asFlag.map .bool
  | count max name => (d.asCount max name).map fun n => .int n
  | pair => d.wrong "a tuple of size 2"
  | list _ => d.wrong "a sequence"
  | table _ => d.wrong "a map"
  | record title _ => d.wrong title
  | again => d.wrong "a map"

/-- Two texts from a list. -/
def checkPair (items : List Datum) : Except Mismatch Datum :=
  match items with
  | [] => .error (.wrongLength 0 "a tuple of size 2")
  | [a] => do
    let _ ← a.asText
    .error (.wrongLength 1 "a tuple of size 2")
  | a :: b :: more => do
    let a ← a.asText
    let b ← b.asText
    if more.isEmpty then .ok (.list [.str a, .str b])
    else .error (.wrongLength items.length "fewer elements in array")

/-- What a record given as a list leaves over: the first missing field is a wrong length. -/
def checkRest (title : String) (all rest : Fields) : Except Mismatch Unit :=
  match rest.find? (·.2.1) with
  | none => .ok ()
  | some f =>
    .error (.wrongLength (all.findIdx fun g => fieldName g == fieldName f) (sized title all))

mutual
/-- What a shape keeps of data, `outer` being the record around it. -/
def check (outer shape : Shape) : Datum → Except Mismatch Datum
  | .list items =>
    match (match shape with | again => outer | s => s) with
    | list item => do return .list (← checkItems outer item items)
    | pair => checkPair items
    | record title fields => do
      let kept ← checkPositions (record title fields) title fields fields items
      if fields.length < items.length then
        .error (.wrongLength items.length "fewer elements in array")
      else return .map kept
    | s => s.scalar (.list items)
  | .map entries =>
    match (match shape with | again => outer | s => s) with
    | table item => do return .map (← checkTable outer item entries)
    | record title fields => do
      let kept ← checkFields (record title fields) fields [] entries
      match missing? fields kept.1 with
      | some name => .error (.missing name)
      | none => return .map kept.2
    | s => s.scalar (.map entries)
  | d => (match shape with | again => outer | s => s).scalar d

def checkItems (outer item : Shape) : List Datum → Except Mismatch (List Datum)
  | [] => .ok []
  | d :: ds => do
    let v ← check outer item d
    return v :: (← checkItems outer item ds)

def checkTable (outer item : Shape) :
    List (String × Datum) → Except Mismatch (List (String × Datum))
  | [] => .ok []
  | (k, d) :: es => do
    let v ← check outer item d
    return (k, v) :: (← checkTable outer item es)

/-- The fields of a record in the order of the data, after those already present: all names present, and
what is kept. -/
def checkFields (outer : Shape) (fields : Fields) (present : List String) :
    List (String × Datum) → Except Mismatch (List String × List (String × Datum))
  | [] => .ok (present, [])
  | (k, d) :: es =>
    match field? fields k with
    | none => checkFields outer fields present es
    | some f =>
      if present.contains (fieldName f) then .error (.duplicate (fieldName f))
      else do
        let v ← check outer f.2.2 d
        let (names, kept) ← checkFields outer fields (fieldName f :: present) es
        return (names, (fieldName f, v) :: kept)

/-- The fields of a record given as a list. -/
def checkPositions (outer : Shape) (title : String) (all rest : Fields) :
    List Datum → Except Mismatch (List (String × Datum))
  | [] => do
    checkRest title all rest
    return []
  | d :: ds =>
    match rest with
    | [] => .ok []
    | f :: fs => do
      let v ← check outer f.2.2 d
      return (fieldName f, v) :: (← checkPositions outer title all fs ds)
end

/-- What a record shape keeps of a JSON value. -/
def ofJson (shape : Shape) (v : Json) : Except Mismatch Datum := check shape shape (.ofJson v)

end Shape

namespace Datum

/-! ### Reading checked data -/

def field? (name : String) : Datum → Option Datum
  | map entries => Entries.get? name entries
  | _ => none

def textAt? (name : String) (d : Datum) : Option String :=
  match d.field? name with
  | some (str s) => some s
  | _ => none

def textAt (name : String) (default : String) (d : Datum) : String := (d.textAt? name).getD default

def flagAt (name : String) (default : Bool) (d : Datum) : Bool :=
  match d.field? name with
  | some (bool b) => b
  | _ => default

def countAt (name : String) (default : Nat) (d : Datum) : Nat :=
  match d.field? name with
  | some (int n) => n.toNat
  | _ => default

def itemsAt (name : String) (d : Datum) : List Datum :=
  match d.field? name with
  | some (list items) => items
  | _ => []

def entriesAt (name : String) (d : Datum) : List (String × Datum) :=
  match d.field? name with
  | some (map entries) => entries
  | _ => []

def textOr (default : String) : Datum → String
  | str s => s
  | _ => default

def pair : Datum → String × String
  | list [a, b] => (a.textOr "", b.textOr "")
  | _ => ("", "")

end Datum

end PageSweep
