import PageSweep.Error

/-!
# Log events

What a run reports of itself: a warning or a note, its text and its named values.
-/

namespace PageSweep

open Number

inductive Level where
  | warn
  | info
deriving DecidableEq, Repr

inductive Event where
  /-- A schema value that is neither text nor a list. -/
  | schemaNotList (kind : String)
  | schemaBlank
  | schemaUnreadable (e : Json.Error)
  /-- A gist address without an id. -/
  | gistWithoutId (url : String)
  | configurationReset
  | handlerSkipped (handler : String) (e : Error)
  | swept (elements cookies : Nat)
  | groupSkipped (e : Error)
  | chainDropped (e : Error)
  | actionFailed (action : String) (e : Error)
  | noted (text : String)
  | clickTargetMissing (selector : String)
  | reloading
  | cookieSurvived (name : String)
  | styleNotAdded (selector : String)
  | styleNotRemoved (selector : String)
  | ruleSkipped (e : Error)
deriving DecidableEq, Repr

namespace Event

def level : Event → Level
  | configurationReset => .info
  | swept _ _ => .info
  | noted _ => .info
  | reloading => .info
  | _ => .warn

def message : Event → String
  | schemaNotList _ => "failed to parse action schema: schema must be an array of actions"
  | schemaBlank => "failed to parse action schema: empty input"
  | schemaUnreadable _ => "failed to parse action schema"
  | gistWithoutId _ => "could not extract gist id, using url as-is"
  | configurationReset => "configuration reset"
  | handlerSkipped _ _ => "skipping handler"
  | swept elements cookies =>
    "removed " ++ natText elements ++ " elements and " ++ natText cookies ++ " cookies"
  | groupSkipped _ => "skipping nested action group"
  | chainDropped _ => "dropping chained action"
  | actionFailed _ _ => "error executing action"
  | noted text => text
  | clickTargetMissing _ => "click target not found"
  | reloading => "reloading page"
  | cookieSurvived _ => "cookie survived every clearing write"
  | styleNotAdded _ => "cannot add global style"
  | styleNotRemoved _ => "cannot remove global style"
  | ruleSkipped _ => "skipping stylesheet rule in snapshot"

/-- The named values of an event. -/
def fields : Event → List (String × String)
  | schemaNotList kind => [("found", kind)]
  | schemaUnreadable e => [("error", e.message)]
  | gistWithoutId url => [("url", url)]
  | handlerSkipped handler e => [("handler", handler), ("error", e.message)]
  | swept elements cookies => [("elements", natText elements), ("cookies", natText cookies)]
  | groupSkipped e => [("error", e.message)]
  | chainDropped e => [("error", e.message)]
  | actionFailed action e => [("action", action), ("error", e.message)]
  | clickTargetMissing selector => [("selector", selector)]
  | cookieSurvived name => [("cookie", name)]
  | styleNotAdded selector =>
    [("error", Error.styleSheetDetached.message), ("selector", selector)]
  | styleNotRemoved selector =>
    [("error", Error.styleSheetDetached.message), ("selector", selector)]
  | ruleSkipped e => [("error", e.message)]
  | _ => []

end Event

end PageSweep
