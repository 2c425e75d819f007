import PageSweep.Event
import PageSweep.Json.Bounds

/-!
# Reading schemas

A schema is a list of entries, as a value or as JSON text; text may hold text in turn. Anything else has no
entries, and the log says why. Unwrapping ends since a string is shorter than its text.
-/

namespace PageSweep.Schema

open Json Text

/-- What lies under the layers of text: a value that is no string, or the text that could not be read. -/
inductive Core where
  | value (v : Json)
  | unreadable (text : String) (e : Json.Error)

/-- Reads a text, and what it holds again as long as that is text. -/
def unwrapText (text : String) : Core :=
  match _h : read text with
  | .error e => .unreadable text e
  | .ok (.str s) => unwrapText s
  | .ok v => .value v
termination_by text.length
decreasing_by exact length_lt_of_read_str _h

/-- The value under the layers of text. -/
def unwrap : Json → Core
  | .str text => unwrapText text
  | v => .value v

/-- The entries of a schema and what there is to report. -/
def Core.entries : Core → List Json × List Event
  | value (.arr items) => (items, [])
  | value v => ([], [.schemaNotList v.kind])
  | unreadable text e =>
    ([], [if (trimList text.toList).isEmpty then .schemaBlank else .schemaUnreadable e])

def parse (schema : Json) : List Json × List Event := (unwrap schema).entries

def parseText (text : String) : List Json × List Event := (unwrapText text).entries

end PageSweep.Schema
