import PageSweep.Schema.Group
import PageSweep.Settings.Basic

/-!
# Warnings

What is wrong with settings, in the order of the handlers. A remote schema is not looked at. Only a handler
without a name and a schema that cannot be read are errors.
-/

namespace PageSweep

open Number Text

inductive Warning where
  | noHandlers
  | unnamed (index : Nat)
  | schemaUnreadable (index : Nat) (name : String) (e : Json.Error)
  | schemaEmpty (index : Nat) (name : String)
  | noChains
deriving DecidableEq, Repr

namespace Warning

def isError : Warning → Bool
  | unnamed _ => true
  | schemaUnreadable _ _ _ => true
  | _ => false

def levelName (w : Warning) : String := if w.isError then "error" else "warning"

def message : Warning → String
  | noHandlers => "no handlers configured; nothing will run"
  | unnamed index => "handler " ++ natText index ++ " has an empty name"
  | schemaUnreadable index name e =>
    "handler " ++ natText index ++ " ('" ++ name ++ "') schema is not valid JSON: " ++ e.message
  | schemaEmpty index name => "handler " ++ natText index ++ " ('" ++ name ++ "') schema has no actions"
  | noChains => "max_chain_depth is 0; onSuccess/onError chains will never run"

def toJson (w : Warning) : Json := .obj [("level", .str w.levelName), ("message", .str w.message)]

/-- What is wrong with the schema of the handler at a place. -/
def ofSchema (index : Nat) (h : Handler) : List Warning :=
  if h.isRemote then []
  else match Json.read h.schema with
    | .error e => [schemaUnreadable index h.name e]
    | .ok _ =>
      if (ActionGroup.detectText h.schema).1.isEmpty then [schemaEmpty index h.name] else []

/-- What is wrong with the handler at a place. -/
def ofHandler (index : Nat) (h : Handler) : List Warning :=
  (if (trimList h.name.toList).isEmpty then [unnamed index] else []) ++ ofSchema index h

/-- What is wrong with handlers from a place on. -/
def ofHandlers : Nat → List Handler → List Warning
  | _, [] => []
  | index, h :: hs => ofHandler index h ++ ofHandlers (index + 1) hs

end Warning

namespace Settings

def warnings (s : Settings) : List Warning :=
  (if s.handlers.isEmpty then [.noHandlers] else []) ++ Warning.ofHandlers 0 s.handlers ++
    (if s.maxChainDepth = 0 then [.noChains] else [])

end Settings

end PageSweep
