import PageSweep.Badge
import PageSweep.CommandLine.Command
import PageSweep.CommandLine.TextTable
import PageSweep.Page.Snapshot
import PageSweep.Schema.Preview
import PageSweep.Settings.Warning
import PageSweep.Visit.Basic

/-!
# What a command decides

A command looks at the stored settings and state and at one file that it names, and decides: on one change
of what is stored, or none, and on what it prints. Nothing is changed before all else has gone well, and
what is printed is printed after the change.
-/

namespace PageSweep

open Number Text

/-- What a command can look at. -/
structure Desk where
  settings : Except FileFault (Option String)
  state : Except FileFault (Option String)
  file : String → Except FileFault String
  /-- What the net answers. -/
  answers : String → Answer
  now : Instant

/-- What a command changes. -/
inductive Change where
  | nothing
  | settings (s : Settings)
  | state (b : Badge)

structure Decision where
  change : Change
  /-- What is printed, line ends included. -/
  text : String
  /-- A failure that comes after the printing. -/
  failure : Option CommandError
  /-- The milliseconds waited for. -/
  waited : Nat

abbrev Decided := Except CommandError Decision

namespace Decision

def prints (text : String) : Decision := ⟨.nothing, text, none, 0⟩

def printing (d : Decision) (text : String) : Decision := { d with text := text }

def changing (c : Change) (text : String) : Decision := ⟨c, text, none, 0⟩

end Decision

def lineOf (s : String) : String := s ++ "\n"

def linesOf (ls : List String) : String := join "" (ls.map lineOf)

/-- A value over several lines, fields in their own order. -/
def jsonLines (v : Json) : String := lineOf v.indented

/-- A value over several lines, fields in the order of their names. -/
def sortedLines (v : Json) : String := jsonLines v.sorted

namespace Desk

def loadSettings (d : Desk) : Except CommandError Settings :=
  match (d.settings.mapError Error.file).bind Settings.load with
  | .ok s => .ok s
  | .error e => .error (.settingsUnreadable e)

def loadBadge (d : Desk) : Except CommandError Badge :=
  match (d.state.mapError Error.file).bind Badge.load with
  | .ok b => .ok b
  | .error e => .error (.stateUnreadable e)

/-- The schema that an argument gives: the argument itself, or the text of the file after an `@`. -/
def schemaText (d : Desk) (argument : String) : Except CommandError String :=
  match argument.toList with
  | '@' :: r =>
    let path := String.ofList r
    (d.file path).mapError (.schemaUnreadable path)
  | _ => .ok argument

/-! ### Handlers -/

/-- The schema of a handler, trimmed. It has to be an address or JSON. -/
def handlerSchema (d : Desk) (argument : String) : Except CommandError String := do
  let schema := trim (← d.schemaText argument)
  if schema.isEmpty then .error .handlerSchemaEmpty
  else if isAddress schema then return schema
  else match Json.read schema with
    | .ok _ => return schema
    | .error e => .error (.handlerSchemaInvalid e)

/-- The name of a handler, trimmed. -/
def handlerName (name : String) : Except CommandError String :=
  if (trim name).isEmpty then .error .handlerNameEmpty else .ok (trim name)

def listHandlers (d : Desk) (json : Bool) : Decided := do
  let s ← d.loadSettings
  return .prints (
    if json then jsonLines (.arr (s.handlers.map Handler.toJson))
    else if s.handlers.isEmpty then lineOf "No handlers configured."
    else linesOf (TextTable.lines ["#", "NAME", "SCHEMA"]
      (s.handlers.zipIdx.map fun (h, i) => [natText i, h.name, Schema.preview h.schema])))

/-- What is printed of a handler at a place. -/
def handlerLines (json : Bool) (done : String) (index : Nat) (h : Handler) : String :=
  if json then sortedLines (.obj [("index", .ofNat index), ("handler", h.toJson)])
  else lineOf (done ++ " handler " ++ natText index ++ ": " ++ h.name)

def addHandler (d : Desk) (json : Bool) (name schema : String) : Decided := do
  let name ← handlerName name
  let schema ← d.handlerSchema schema
  let s ← d.loadSettings
  let (index, s) := s.add ⟨name, schema⟩
  return .changing (.settings s) (handlerLines json "Added" index ⟨name, schema⟩)

def optionally {α β : Type} (f : α → Except CommandError β) : Option α → Except CommandError (Option β)
  | none => .ok none
  | some a => (f a).map some

def updateHandler (d : Desk) (json : Bool) (index : Nat) (name? schema? : Option String) : Decided := do
  if name?.isNone && schema?.isNone then .error .nothingToUpdate
  else
    let name? ← optionally handlerName name?
    let schema? ← optionally d.handlerSchema schema?
    let s ← d.loadSettings
    let (h, s) ← (s.update index name? schema?).mapError .failed
    return .changing (.settings s) (handlerLines json "Updated" index h)

def removeHandler (d : Desk) (json : Bool) (index : Nat) : Decided := do
  let s ← d.loadSettings
  let (h, s) ← (s.remove index).mapError .failed
  return .changing (.settings s) (
    if json then sortedLines (.obj [("removed", h.toJson)])
    else lineOf ("Removed handler " ++ natText index ++ ": " ++ h.name))

/-! ### Settings -/

def showSettings (d : Desk) (json : Bool) : Decided := do
  let s ← d.loadSettings
  return .prints (if json then jsonLines s.toJson else s.writeYaml)

def validateSettings (d : Desk) (json : Bool) : Decided := do
  let s ← d.loadSettings
  let ws := s.warnings
  let text :=
    if json then sortedLines (.obj [("warnings", .arr (ws.map Warning.toJson))])
    else if ws.isEmpty then lineOf "Config is valid. No warnings."
    else linesOf (ws.map fun w => "[" ++ w.levelName ++ "] " ++ w.message)
  return { Decision.prints text with
    failure := if ws.any Warning.isError then some .settingsInvalid else none }

def resetSettings (json : Bool) : Decided :=
  let s := Settings.default
  .ok (.changing (.settings s) (
    if json then jsonLines s.toJson
    else lineOf ("Configuration reset to defaults (" ++ natText s.handlers.length ++ " handler).")))

def setDebug (d : Desk) (json on : Bool) : Decided := do
  let s ← d.loadSettings
  return .changing (.settings { s with debug := on }) (
    if json then jsonLines (.obj [("debug", .bool on)])
    else lineOf (if on then "Debug mode enabled." else "Debug mode disabled."))

/-! ### The counter -/

def counterLines (json : Bool) (b : Badge) : String :=
  if json then sortedLines (.obj [("total_counter", .ofNat b.total), ("badge", .str b.text)])
  else lineOf ("Total: " ++ natText b.total ++ " (badge " ++ b.text ++ ")")

def showCounter (d : Desk) (json : Bool) : Decided := do
  return .prints (counterLines json (← d.loadBadge))

def resetCounter (d : Desk) (json : Bool) : Decided := do
  let b := (← d.loadBadge).apply .resetCounter
  return .changing (.state b) (counterLines json b)

/-! ### Schemas -/

def check (d : Desk) (json : Bool) (argument : String) : Decided := do
  let text ← d.schemaText argument
  let preview := Schema.preview text
  if isAddress (trim text) then
    return .prints (
      if json then sortedLines (.obj [("remote", .bool true), ("preview", .str preview)])
      else linesOf [preview,
        "Remote schemas are resolved at run time; use `uncookie fetch` to inspect."])
  else match Json.read text with
    | .error e => .error (.schemaInvalid e)
    | .ok _ =>
      let (group, _) := ActionGroup.detectText text
      return .prints (
        if json then sortedLines (.obj [("remote", .bool false), ("shape", .str group.shapeName),
          ("entries", .ofNat group.size), ("domains", .arr (group.domains.map .str)),
          ("preview", .str preview)])
        else linesOf (["Shape:   " ++ group.shapeName, "Entries: " ++ natText group.size] ++
          (if group.domains.isEmpty then [] else ["Domains: " ++ join ", " group.domains]) ++
          ["Preview: " ++ preview] ++
          (if group.isEmpty then ["warning: schema has no actions"] else [])))

def fetch (d : Desk) (json : Bool) (url : String) : Decided := do
  let s ← d.loadSettings
  match ((SchemaCache.new s.cacheTtl).resolve d.answers 0 url).result with
  | .error e => .error (.fetchFailed url e)
  | .ok content =>
    return .prints (
      if json then sortedLines (.obj [("url", .str url), ("content", .str content)])
      else lineOf content)

/-! ### Running -/

/-- What is printed of a walk. -/
def reportLines (reports : List Report) (sent : List Message) : List String :=
  if reports.isEmpty then ["No handler applied to this page."]
  else
    TextTable.lines ["HANDLER", "SHAPE", "ACTIONS", "FAILED", "ELEMENTS", "COOKIES"]
      (reports.map fun r => [r.handler, r.shape, natText r.summary.executed, natText r.summary.failed,
        natText r.summary.elements, natText r.summary.cookies]) ++
      (if sent.contains .clearAllCookies then
        ["Requested a full cookie clear from the background context."] else []) ++
      (if reports.any (·.summary.halted) then
        ["Page reload requested; remaining actions skipped."] else [])

def run (d : Desk) (json : Bool) (path : String) (dump : Bool) : Decided := do
  let s ← d.loadSettings
  let text ← (d.file path).mapError (.pageUnreadable path)
  let snapshot ← (Snapshot.readYaml text).mapError .pageInvalid
  -- The walk is over before the stored state is looked at, and a bad state fails the command all the same.
  let visit := Visit.open_ (Page.ofSnapshot snapshot).1 s.maxChainDepth s.cacheTtl s.handlers d.now
  let walk := visit.walk d.answers 0
  if walk.page.overran then .error .countOverran
  else
    let badge := (← d.loadBadge).applyAll walk.sent
    let after := walk.page.snapshot
    let text :=
      if json then sortedLines (.obj ([("passes", .arr (walk.reports.map Report.toJson)),
        ("messages", .arr (walk.sent.map Message.toJson)), ("total_counter", .ofNat badge.total),
        ("badge", .str badge.text)] ++ if dump then [("page", after.toJson)] else []))
      else linesOf (reportLines walk.reports walk.sent ++ ["Badge: " ++ badge.text]) ++
        (if dump then lineOf "" ++ after.writeYaml else "")
    return { Decision.changing (.state badge) text with waited := walk.clock }

end Desk

/-- What a command decides, and whether it prints JSON. -/
def Command.decide (c : Command) (json : Bool) (d : Desk) : Decided :=
  match c with
  | .run page dump => d.run json page dump
  | .check schema => d.check json schema
  | .fetch url => d.fetch json url
  | .listHandlers => d.listHandlers json
  | .addHandler name schema => d.addHandler json name schema
  | .updateHandler index name schema => d.updateHandler json index name schema
  | .removeHandler index => d.removeHandler json index
  | .showSettings => d.showSettings json
  | .validateSettings => d.validateSettings json
  | .resetSettings => Desk.resetSettings json
  | .setDebug on => d.setDebug json on
  | .showCounter => d.showCounter json
  | .resetCounter => d.resetCounter json

end PageSweep
