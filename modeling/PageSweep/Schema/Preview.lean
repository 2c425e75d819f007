import PageSweep.Handler
import PageSweep.Json.Writer

/-!
# Previews

One short line for a schema reference: the address of a remote one, or the host, name and target of the
first entry and how many follow.
-/

namespace PageSweep.Schema

open Number

/-- The first characters of a text, marked if there were more. -/
def shorten (limit : Nat) (cs : List Char) : List Char :=
  if cs.length ≤ limit then cs else cs.take limit ++ "...".toList

/-- A labelled field of an entry, if it is text. -/
def previewField (entry : Json) (key after : String) : String :=
  match (entry.get? key).bind Json.text? with
  | some text => key ++ ": " ++ text ++ after
  | none => ""

/-- The line for the entries of a schema. -/
def previewEntries (first : Json) (more : Nat) : String :=
  "\x7b" ++ previewField first "domain" ", " ++ previewField first "action" ", " ++
    previewField first "target" "" ++ "\x7d" ++
    (if more = 0 then "" else " + " ++ natText more ++ " more")

/-- A line of at most 50 characters, or 40 of an address, an ellipsis apart. -/
def preview (schema : String) : String :=
  if isAddress schema then "Remote schema: " ++ String.ofList (shorten 40 schema.toList)
  else
    let line := match Json.read schema with
      | .error _ => schema
      | .ok (.arr (first :: more)) => previewEntries first more.length
      | .ok (.arr []) => Json.compact (.arr [])
      | .ok v => previewEntries v 0
    String.ofList (shorten 50 line.toList)

end PageSweep.Schema
