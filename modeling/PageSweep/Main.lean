import PageSweep.CommandLine.Run
import Std.Time.DateTime.Timestamp

/-!
# The program

Reads the files that a command can look at, lets it decide, and makes the change. There is no way to the
net from here, so every fetch fails.
-/

namespace PageSweep.Program

def faultOf : IO.Error → FileFault
  | .noFileOrDirectory _ _ _ => .notFound
  | .noSuchThing _ _ _ => .notFound
  | .inappropriateType _ _ _ => .isADirectory
  | .alreadyExists _ _ _ => .alreadyExists
  | .permissionDenied _ _ _ => .permissionDenied
  | .resourceBusy _ _ => .resourceBusy
  | .invalidArgument _ code _ => if code = 36 then .nameTooLong else .nulInName
  | _ => .invalidData

def readText (path : String) : IO (Except FileFault String) := do
  try return .ok (← IO.FS.readFile path)
  catch e => return .error (faultOf e)

def readOptional (path : Path) : IO (Except FileFault (Option String)) := do
  match ← readText path.text with
  | .ok text => return .ok (some text)
  | .error .notFound => return .ok none
  | .error e => return .error e

def isDirectory (path : Path) : IO Bool := do
  try
    (← IO.FS.realPath path.text).isDir
  catch _ => return false

/-- Writes beside the file first, so that it is replaced as a whole. -/
def writeText (path : Path) (text : String) : IO (Except FileFault Unit) := do
  try
    if let some above := path.parent? then
      IO.FS.createDirAll (if above.isEmpty then "." else above.text)
    let draft := path.text ++ ".new"
    IO.FS.writeFile draft text
    IO.FS.rename draft path.text
    return .ok ()
  catch e => return .error (faultOf e)

def rootFor (root? : Option String) : IO Path := do
  match root?.or (← IO.getEnv "UNCOOKIE_ROOT") with
  | some root => return .ofText root
  | none =>
    let here := Path.ofText (← IO.currentDir).toString
    let marked ← here.ancestors.filterM fun p => isDirectory (p.append markDirectory)
    return marked.head?.getD here

/-- What a command can look at, with the one file it names read beforehand. -/
def deskFor (root : Path) (c : Command) : IO Desk := do
  let file : Except FileFault String ← match c.fileNamed? with
    | some path => readText path
    | none => pure (.error .notFound)
  let seconds := (← Std.Time.Timestamp.now).toSecondsSinceUnixEpoch.val
  return ⟨← readOptional (settingsPath root), ← readOptional (statePath root), fun _ => file,
    fun _ => .unreachable, ⟨seconds, 0⟩⟩

def invoke (i : Invocation) : IO Output := do
  let root ← rootFor i.root
  match i.command.decide i.json (← deskFor root i.command) with
  | .error e => return .ofFailure e
  | .ok d =>
    IO.sleep (UInt32.ofNat d.waited)
    match d.change.file? root with
    | none => return .ofDecision d
    | some (path, text, failure) =>
      match ← writeText path text with
      | .ok () => return .ofDecision d
      | .error e => return .ofFailure (failure e)

end PageSweep.Program

def main (words : List String) : IO UInt32 := do
  let output ← match PageSweep.Invocation.read words with
    | .error refusal => pure refusal.output
    | .ok i => PageSweep.Program.invoke i
  IO.print output.text
  if let some e := output.failure then IO.eprintln ("error: " ++ e.message)
  return UInt32.ofNat output.code
