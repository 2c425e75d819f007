import PageSweep.Error

/-!
# Commands

What the command line can be told to do, and how a command can fail. Each failure says first what was being
done and then, where there is one, its cause.
-/

namespace PageSweep

inductive Command where
  /-- Walk through the handlers on the page of a file, and show the page after it or not. -/
  | run (page : String) (dump : Bool)
  | check (schema : String)
  | fetch (url : String)
  | listHandlers
  | addHandler (name schema : String)
  | updateHandler (index : Nat) (name schema : Option String)
  | removeHandler (index : Nat)
  | showSettings
  | validateSettings
  | resetSettings
  | setDebug (on : Bool)
  | showCounter
  | resetCounter
deriving DecidableEq, Repr

inductive CommandError where
  | settingsUnreadable (e : Error)
  | settingsUnwritable (e : Error)
  | stateUnreadable (e : Error)
  | stateUnwritable (e : Error)
  | schemaUnreadable (path : String) (fault : FileFault)
  | pageUnreadable (path : String) (fault : FileFault)
  | pageInvalid (e : Error)
  | schemaInvalid (e : Json.Error)
  | handlerSchemaInvalid (e : Json.Error)
  | handlerSchemaEmpty
  | handlerNameEmpty
  | nothingToUpdate
  | fetchFailed (url : String) (e : Error)
  | settingsInvalid
  /-- Something could not be counted on the page, which ends the program at once. -/
  | countOverran
  | failed (e : Error)
deriving DecidableEq, Repr

/-- The text of a failure inside another message. -/
def Error.cause : Error → String
  | .file fault => fault.text
  | e => e.message

namespace CommandError

/-- What was being done. -/
def context : CommandError → String
  | settingsUnreadable _ => "failed to load config"
  | settingsUnwritable _ => "failed to save config"
  | stateUnreadable _ => "failed to load state"
  | stateUnwritable _ => "failed to save state"
  | schemaUnreadable path _ => "cannot read schema " ++ path
  | pageUnreadable path _ => "cannot read page " ++ path
  | pageInvalid _ => "invalid page snapshot"
  | schemaInvalid _ => "schema is not valid JSON"
  | handlerSchemaInvalid _ => "handler schema is not valid JSON"
  | handlerSchemaEmpty => "handler schema must not be empty"
  | handlerNameEmpty => "handler name must not be empty"
  | nothingToUpdate => "nothing to update: pass --name and/or --schema"
  | fetchFailed url _ => "failed to load " ++ url
  | settingsInvalid => "config validation found errors"
  | countOverran => "attempt to add with overflow"
  | failed e => e.cause

def cause? : CommandError → Option String
  | settingsUnreadable e => some e.cause
  | settingsUnwritable e => some e.cause
  | stateUnreadable e => some e.cause
  | stateUnwritable e => some e.cause
  | schemaUnreadable _ fault => some fault.text
  | pageUnreadable _ fault => some fault.text
  | pageInvalid e => some e.cause
  | schemaInvalid e => some e.message
  | handlerSchemaInvalid e => some e.message
  | fetchFailed _ e => some e.cause
  | _ => none

def message (e : CommandError) : String :=
  match e.cause? with
  | some cause => e.context ++ ": " ++ cause
  | none => e.context

end CommandError

end PageSweep
