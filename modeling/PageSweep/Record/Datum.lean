import PageSweep.Json.Fault

/-!
# Data of records

What a record keeps of a text: typed scalars, lists and named values. Names may repeat; which of them counts
is for the reader of the record to say.
-/

namespace PageSweep

open Number Text

inductive Datum where
  | null
  | bool (b : Bool)
  | int (n : Int)
  | double (x : Binary64)
  | str (s : String)
  | list (items : List Datum)
  | map (entries : List (String × Datum))
deriving Inhabited, Repr

namespace Datum

mutual
/-- A JSON value as data. -/
def ofJson : Json → Datum
  | .null => null
  | .bool b => bool b
  | .int n => int n
  | .double x => double x
  | .str s => str s
  | .arr items => list (ofItems items)
  | .obj fields => map (ofFields fields)

def ofItems : List Json → List Datum
  | [] => []
  | v :: vs => ofJson v :: ofItems vs

def ofFields : List (String × Json) → List (String × Datum)
  | [] => []
  | (k, v) :: fs => (k, ofJson v) :: ofFields fs
end

/-- What a message says stands there. -/
def found : Datum → Found
  | null => .null
  | bool b => .bool b
  | int n => .int n
  | double x => .double x
  | str s => .str s
  | list _ => .list
  | map _ => .map

def wrong {α : Type} (d : Datum) (expected : String) : Except Mismatch α :=
  .error (.wrongType d.found expected)

def asText : Datum → Except Mismatch String
  | str s => .ok s
  | d => d.wrong "a string"

/-- A text, or none for the absent value. -/
def asOptionalText : Datum → Except Mismatch (Option String)
  | null => .ok none
  | d => d.asText.map some

def asFlag : Datum → Except Mismatch Bool
  | bool b => .ok b
  | d => d.wrong "a boolean"

/-- A count of at most `max`, for a field whose type a message names. -/
def asCount (max : Nat) (name : String) : Datum → Except Mismatch Nat
  | int n => if 0 ≤ n ∧ n.toNat ≤ max then .ok n.toNat else .error (.wrongValue (.int n) name)
  | d => d.wrong name

end Datum

end PageSweep
