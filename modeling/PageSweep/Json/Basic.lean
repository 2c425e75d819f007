import PageSweep.Number.Shortest
import PageSweep.Table

/-!
# JSON values

The values that schemas are made of. An object is a list of entries; those that are read or built with
`ofFields` have increasing keys, so they have one form however they were written. A number in the range of
signed or unsigned 64-bit integers is kept exact, any other number is a double.
-/

namespace PageSweep

open Number

inductive Json where
  | null
  | bool (b : Bool)
  | int (n : Int)
  | double (x : Binary64)
  | str (s : String)
  | arr (items : List Json)
  | obj (fields : List (String × Json))
deriving Inhabited, Repr

namespace Json

/-- The name of a value's kind, as log lines and failures give it. -/
def kind : Json → String
  | null => "null"
  | bool _ => "boolean"
  | int _ => "number"
  | double _ => "number"
  | str _ => "string"
  | arr _ => "array"
  | obj _ => "object"

/-- The value of a field; only objects have fields. -/
def get? (key : String) : Json → Option Json
  | obj fields => Entries.get? key fields
  | _ => none

def text? : Json → Option String
  | str s => some s
  | _ => none

def items? : Json → Option (List Json)
  | arr items => some items
  | _ => none

/-- An object of the given fields, whatever their order; of two under one key the last stays. -/
def ofFields (fields : List (String × Json)) : Json := obj (Entries.ofList fields)

def ofNat (n : Nat) : Json := int n

mutual
/-- The value with the fields of all its objects in the order of their keys. -/
def sorted : Json → Json
  | arr items => arr (sortedItems items)
  | obj fields => ofFields (sortedFields fields)
  | v => v

def sortedItems : List Json → List Json
  | [] => []
  | v :: vs => v.sorted :: sortedItems vs

def sortedFields : List (String × Json) → List (String × Json)
  | [] => []
  | (k, v) :: fs => (k, v.sorted) :: sortedFields fs
end

/-- The text of a string, a number or `true`; other values have none. -/
def scalarText? : Json → Option String
  | str s => some s
  | int n => some (intText n)
  | double x => some x.text
  | bool true => some "true"
  | _ => none

end Json

end PageSweep
