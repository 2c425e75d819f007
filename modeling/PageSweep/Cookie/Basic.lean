import PageSweep.Record.Shape

/-!
# Cookies

A cookie has a name, a value, the path it is for, and perhaps a domain; without one it is for its host alone.
-/

namespace PageSweep

structure Cookie where
  name : String
  value : String
  /-- Absent for a cookie of one host alone. -/
  domain : Option String
  path : String
deriving DecidableEq, Repr

/-- The path that covers every page. -/
def rootPath : String := "/"

namespace Cookie

/-- Cookies with one key replace each other. -/
def sameKey (a b : Cookie) : Bool := a.name == b.name && a.domain == b.domain && a.path == b.path

def shape : Shape :=
  .record "struct Cookie" [(["name"], true, .text), (["value"], false, .text),
    (["domain"], false, .optionalText), (["path"], false, .text)]

def ofDatum (d : Datum) : Cookie :=
  ⟨d.textAt "name" "", d.textAt "value" "", d.textAt? "domain", d.textAt "path" rootPath⟩

def ofJson (v : Json) : Except Mismatch Cookie := (Shape.ofJson shape v).map ofDatum

def toJson (c : Cookie) : Json :=
  .obj ([("name", .str c.name), ("value", .str c.value)] ++
    (match c.domain with
      | some d => [("domain", .str d)]
      | none => []) ++ [("path", .str c.path)])

end Cookie

end PageSweep
