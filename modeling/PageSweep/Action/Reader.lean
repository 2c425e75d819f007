import PageSweep.Action.Basic
import PageSweep.Text.Pieces

/-!
# Reading actions

An action is read from a JSON object, and reading never fails: what cannot be understood is an operation
that fails with the reason, so what should follow the failure still does.

A field that is empty, absent or no scalar counts as absent. A `log` or `message` wins over everything else.
-/

namespace PageSweep

open Number Text

/-- The longest delay, in milliseconds. -/
def maxDelay : Nat := 60000

abbrev JsonFields := List (String × Json)

namespace Op

/-- The text of a field, unless it is empty. -/
def textField? (key : String) (fields : JsonFields) : Option String :=
  ((Entries.get? key fields).bind Json.scalarText?).filter (· ≠ "")

/-- One property with its value, or else the scalars of the `styles` object. -/
def declarationsOf (fields : JsonFields) : List Declaration :=
  match textField? "property" fields, textField? "value" fields with
  | some property, some value => [(property, value)]
  | _, _ =>
    match Entries.get? "styles" fields with
    | some (.obj styles) => styles.filterMap fun s => s.2.scalarText?.map fun v => (s.1, v)
    | _ => []

/-- The operation on a target that has to be given. -/
def onTarget (name : String) (target? : Option String) (build : String → Op) : Op :=
  match target? with
  | some target => build target
  | none => invalid ("`" ++ name ++ "` requires a target")

/-- The operation of a name, with its fields. -/
def ofName (name : String) (fields : JsonFields) : Op :=
  let target? := textField? "target" fields
  match name with
  | "log" => log (target?.getD "")
  | "reload" => reload
  | "click" => onTarget name target? click
  | "remove" => onTarget name target? remove
  | "hide" => onTarget name target? hide
  | "style" => onTarget name target? fun t => style t (declarationsOf fields)
  | "removeClass" | "remove-class" =>
    match textField? "className" fields with
    | some className => onTarget name target? fun t => removeClass t className
    | none => invalid ("`" ++ name ++ "` requires a className")
  | "clearCookie" | "clear-cookies" | "delete-cookies" =>
    match target? with
    | some t => if t = "*" then clearAllCookies else clearCookie t
    | none => invalid ("`" ++ name ++ "` requires a target cookie name")
  | "clearAllCookies" => clearAllCookies
  | "addGlobalStyle" =>
    let declarations := declarationsOf fields
    if declarations.isEmpty then invalid "`addGlobalStyle` requires styles"
    else onTarget name target? fun t => addGlobalStyle t declarations
  | "removeGlobalStyle" => onTarget name target? removeGlobalStyle
  | other => invalid ("unknown action type: " ++ other)

/-- The operation that the fields of an object describe. -/
def ofFields (fields : JsonFields) : Op :=
  match (textField? "log" fields).or (textField? "message" fields) with
  | some text => log text
  | none =>
    match (Entries.get? "action" fields).bind Json.text? with
    | some name => ofName name fields
    | none => invalid "missing `action` field"

end Op

/-- The delay of an action: a positive number, its fraction dropped, or the text of one; 0 if there is none. -/
def delayOf (fields : JsonFields) : Nat :=
  let ms := match Entries.get? "delay" fields with
    | some (.int n) => n.toNat
    | some (.double x) => if x.isPositive then x.floor else 0
    | some (.str s) => (readCount? maxCount (trimList s.toList)).getD 0
    | _ => 0
  min ms maxDelay

namespace Chain

mutual
/-- The action of a JSON value, with all that may follow it. -/
def ofJson : Json → Chain
  | .obj fields =>
    link (.ofFields fields) (delayOf fields) (ofKey "onSuccess" fields) (ofKey "onError" fields)
  | v => link (.invalid ("action must be an object, got " ++ v.kind)) 0 done done

/-- The action under a key; a null is none. -/
def ofKey (key : String) : JsonFields → Chain
  | [] => done
  | (k, v) :: fields =>
    if k = key then
      match v with
      | .null => done
      | v => ofJson v
    else ofKey key fields
end

end Chain

end PageSweep
