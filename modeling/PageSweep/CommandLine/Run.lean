import PageSweep.CommandLine.Arguments
import PageSweep.CommandLine.Decision
import PageSweep.Files.Home

/-!
# Running a command line

A command line is read, its command decides, and the change is made in the files of the root. The root is
the one that is given, or the nearest marked directory around, or else the directory one stands in.
-/

namespace PageSweep

/-- What a run of the program leaves behind besides files. -/
structure Output where
  code : Nat
  text : String
  failure : Option CommandError
  /-- The milliseconds waited for. -/
  waited : Nat

namespace Output

def ofFailure (e : CommandError) : Output := ⟨1, "", some e, 0⟩

/-- The output of a decision after its change was made. -/
def ofDecision (d : Decision) : Output := ⟨if d.failure.isSome then 1 else 0, d.text, d.failure, d.waited⟩

/-- The output at the end of the program, which has a code of its own when a count ran over. -/
def atEnd (o : Output) : Output := if o.failure = some .countOverran then { o with code := 101 } else o

end Output

def usageText : String :=
  linesOf ["Usage: uncookie [--root <ROOT>] [--json] [--debug] <COMMAND>", "", "Commands:",
    "  run --page <PAGE> [--dump]",
    "  check <SCHEMA>",
    "  fetch <URL>",
    "  handler list",
    "  handler add <NAME> <SCHEMA>",
    "  handler update <INDEX> [--name <NAME>] [--schema <SCHEMA>]",
    "  handler remove <INDEX>",
    "  config show",
    "  config validate",
    "  config reset",
    "  config debug <on|off>",
    "  counter show",
    "  counter reset"]

def versionNumber : String := "0.1.0"

/-- What is printed when there is nothing to run. -/
def Refusal.output : Refusal → Output
  | usage => ⟨2, "", none, 0⟩
  | help => ⟨0, usageText, none, 0⟩
  | version name => ⟨0, lineOf (name ++ " " ++ versionNumber), none, 0⟩

/-- The file that a command names. -/
def Command.fileNamed? : Command → Option String
  | run page _ => some page
  | check schema => marked? schema
  | addHandler _ schema => marked? schema
  | updateHandler _ _ (some schema) => marked? schema
  | _ => none
where
  marked? (argument : String) : Option String :=
    match argument.toList with
    | '@' :: r => some (String.ofList r)
    | _ => none

/-- The change as the file it concerns and its new text. -/
def Change.file? (root : Path) : Change → Option (Path × String × (FileFault → CommandError))
  | nothing => none
  | settings s => some (settingsPath root, s.writeYaml, fun e => .settingsUnwritable (.file e))
  | state b => some (statePath root, b.writeYaml, fun e => .stateUnwritable (.file e))

namespace FileTree

/-- What a command can look at from a root. -/
def desk (t : FileTree) (root : Path) (answers : String → Answer) (now : Instant) : Desk :=
  ⟨t.readOptional (settingsPath root), t.readOptional (statePath root), fun path => t.read (.ofText path),
    answers, now⟩

/-- The root that an invocation is for. -/
def rootFor (t : FileTree) (root? : Option String) : Path :=
  match root? with
  | some root => .ofText root
  | none => (t.findRoot? t.herePath).getD t.herePath

/-- Makes the change of a decision. -/
def carryOut (t : FileTree) (root : Path) (d : Decision) : Output × FileTree :=
  match d.change.file? root with
  | none => (.ofDecision d, t)
  | some (path, text, failure) =>
    match t.writeText path text with
    | (.ok (), t) => (.ofDecision d, t)
    | (.error e, t) => (.ofFailure (failure e), t)

/-- Runs a command. -/
def invoke (t : FileTree) (i : Invocation) (answers : String → Answer) (now : Instant) :
    Output × FileTree :=
  let root := t.rootFor i.root
  match i.command.decide i.json (t.desk root answers now) with
  | .error e => (.ofFailure e, t)
  | .ok d => t.carryOut root d

/-- Runs a command line. -/
def runLine (t : FileTree) (words : List String) (answers : String → Answer) (now : Instant) :
    Output × FileTree :=
  match Invocation.read words with
  | .error refusal => (refusal.output, t)
  | .ok i =>
    let (output, t) := t.invoke i answers now
    (output.atEnd, t)

end FileTree

end PageSweep
