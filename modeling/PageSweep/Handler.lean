import PageSweep.Host
import PageSweep.Record.Reader

/-!
# Handlers

A handler is a named rule set: the host it is for, and its schema, either the JSON text itself or the
address it is fetched from.
-/

namespace PageSweep

structure Handler where
  name : String
  schema : String
deriving DecidableEq, Repr

/-- Whether a schema reference is an address and not schema text. -/
def isAddress (reference : String) : Bool := Text.startsWith "http" reference

namespace Handler

/-- Whether the schema has to be fetched. -/
def isRemote (h : Handler) : Bool := isAddress (Text.trim h.schema)

def appliesTo (h : Handler) (host : String) : Bool := Host.isMatch h.name host

def shape : Shape :=
  .record "struct Handler" [(["name", "rulesetName"], true, .text), (["schema"], true, .text)]

/-- The handler in data of its shape. -/
def ofDatum (d : Datum) : Handler := ⟨d.textAt "name" "", d.textAt "schema" ""⟩

/-- Handlers from a JSON list. -/
def listOfJson (v : Json) : Except Mismatch (List Handler) :=
  (Shape.ofJson (.list shape) v).map fun
    | .list items => items.map ofDatum
    | _ => []

/-- Reads a handler from JSON text. -/
def read (text : String) : Except Json.Error Handler := (shape.read text).map ofDatum

def toJson (h : Handler) : Json := .obj [("name", .str h.name), ("schema", .str h.schema)]

end Handler

end PageSweep
