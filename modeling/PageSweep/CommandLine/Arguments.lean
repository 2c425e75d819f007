import PageSweep.CommandLine.Command
import PageSweep.Number.Numeral
import PageSweep.Text.Pieces

/-!
# Arguments

The words after the program's name. They come in levels: the program, a group of commands, a command. Every
level takes options, and either the name of the next level or a fixed row of values. Options for all levels
may stand at any of them, the innermost one wins; at one level an option stands once. After `--` every word
is a value.

Words are taken one by one, and the first one that cannot be taken, or that asks for help or for the
version, is the last one looked at.
-/

namespace PageSweep

open Number Text

/-- An option: its name, the letter for it, and what value it takes. -/
structure OptionSpec where
  name : String
  letter : Option Char
  takesValue : Bool
  mayBeEmpty : Bool

/-- What a value has to be. -/
inductive ValueKind where
  | text
  | index
  | onOff
deriving DecidableEq, Repr

/-- The number that a word is as an index. -/
def indexOf? (word : String) : Option Nat := readCount? maxCount word.toList

/-- Whether a switch is on, as a word says it. -/
def switchOf? (word : String) : Option Bool :=
  if word = "on" then some true else if word = "off" then some false else none

def ValueKind.accepts (word : String) : ValueKind → Bool
  | text => true
  | index => (indexOf? word).isSome
  | onOff => (switchOf? word).isSome

/-- What may be given at a level. -/
structure ArgumentLevel where
  options : List OptionSpec
  /-- The names of the levels below. -/
  next : List String
  values : List ValueKind

/-- Why there is nothing to run. -/
inductive Refusal where
  | usage
  /-- Help is asked for. -/
  | help
  /-- The version is asked for, of the program or of a level by its full name. -/
  | version (name : String)
deriving DecidableEq, Repr

/-- What was given at a level. -/
structure Given where
  options : List (String × String)
  values : List String

namespace Given

def empty : Given := ⟨[], []⟩

def has (g : Given) (name : String) : Bool := g.options.any (·.1 == name)

def option? (g : Given) (name : String) : Option String :=
  (g.options.find? (·.1 == name)).map (·.2)

/-- Takes in an option, once. -/
def add (g : Given) (name value : String) : Except Refusal Given :=
  if g.has name then .error .usage else .ok { g with options := g.options ++ [(name, value)] }

end Given

namespace ArgumentLevel

def find? (l : ArgumentLevel) (name : String) : Option OptionSpec := l.options.find? (·.name == name)

def letter? (l : ArgumentLevel) (c : Char) : Option OptionSpec := l.options.find? (·.letter == some c)

/-- Whether a word can be no value. -/
def looksLikeOption (word : String) : Bool := startsWith "-" word && word ≠ "-"

def addValue (spec : OptionSpec) (value : String) (g : Given) : Except Refusal Given :=
  if value.isEmpty && !spec.mayBeEmpty then .error .usage else g.add spec.name value

/-- Takes in the next value, if one is wanted that the word can be. -/
def addWord (l : ArgumentLevel) (word : String) (g : Given) : Except Refusal Given :=
  if l.values[g.values.length]?.any (·.accepts word) then .ok { g with values := g.values ++ [word] }
  else .error .usage

/-- Takes in a row of letters; the options with letters take no values. -/
def addLetters (l : ArgumentLevel) (title : String) : List Char → Given → Except Refusal Given
  | [], g => .ok g
  | c :: cs, g =>
    if c = 'h' then .error .help
    else if c = 'V' then .error (.version title)
    else match l.letter? c with
      | none => .error .usage
      | some spec => do l.addLetters title cs (← g.add spec.name "")

/-- Reads the words of a level, up to the name of the next one: what was given, and that name with the words
after it. -/
def read (l : ArgumentLevel) (title : String) :
    Bool → Given → List String → Except Refusal (Given × Option (String × List String))
  | _, g, [] => if g.values.length = l.values.length then .ok (g, none) else .error .usage
  | true, g, word :: words => do l.read title true (← l.addWord word g) words
  | false, g, word :: words =>
    if l.next.contains word then .ok (g, some (word, words))
    else if word = "--" then l.read title true g words
    else if startsWith "--" word then
      let (name, value?) := match cutAt '=' (word.toList.drop 2) with
        | some (name, value) => (String.ofList name, some (String.ofList value))
        | none => (String.ofList (word.toList.drop 2), none)
      match l.find? name with
      | none =>
        if name = "help" ∧ value?.isNone then .error .help
        else if name = "version" ∧ value?.isNone then .error (.version title)
        else .error .usage
      | some spec =>
        match spec.takesValue, value?, words with
        | false, none, words => do l.read title false (← g.add name "") words
        | false, some _, _ => .error .usage
        | true, some value, words => do l.read title false (← addValue spec value g) words
        | true, none, [] => .error .usage
        | true, none, value :: words =>
          -- What looks like an option is one, so the value is missing.
          if looksLikeOption value then .error .usage
          else do l.read title false (← addValue spec value g) words
    else if looksLikeOption word then do
      l.read title false (← l.addLetters title (word.toList.drop 1) g) words
    else do l.read title false (← l.addWord word g) words

end ArgumentLevel

/-- A command with the options for all levels. -/
structure Invocation where
  root : Option String
  json : Bool
  command : Command
deriving DecidableEq, Repr

namespace Invocation

def title : String := "uncookie"

def globals : List OptionSpec :=
  [⟨"root", none, true, false⟩, ⟨"json", some 'j', false, false⟩, ⟨"debug", none, false, false⟩]

def leaf (options : List OptionSpec) (values : List ValueKind) : ArgumentLevel :=
  ⟨globals ++ options, [], values⟩

def topNames : List String := ["run", "check", "fetch", "handler", "config", "counter"]

/-- The names below a group. -/
def namesIn : String → List String
  | "handler" => ["list", "add", "update", "remove"]
  | "config" => ["show", "validate", "reset", "debug"]
  | "counter" => ["show", "reset"]
  | _ => []

/-- The names of the levels below one, which is given by the names that lead to it. Help is a name wherever
there are names. -/
def namesBelow : List String → List String
  | [] => topNames ++ ["help"]
  | [name] => if (namesIn name).isEmpty then [] else namesIn name ++ ["help"]
  | _ => []

/-- A level with names below it. -/
def group (names : List String) : ArgumentLevel := ⟨globals, namesBelow names, []⟩

/-- What asking for help on a level comes to: the words have to name one. -/
def helpOn (names : List String) : List String → Refusal
  | [] => .help
  | word :: words => if (namesBelow names).contains word then helpOn (names ++ [word]) words else .usage

/-- What a command takes, by the name of its group and its own. -/
def levelOf (name : String × String) : ArgumentLevel :=
  match name with
  | ("", "run") => leaf [⟨"page", none, true, false⟩, ⟨"dump", none, false, false⟩] []
  | ("", "check") => leaf [] [.text]
  | ("", "fetch") => leaf [] [.text]
  | ("handler", "add") => leaf [] [.text, .text]
  | ("handler", "update") => leaf [⟨"name", none, true, true⟩, ⟨"schema", none, true, true⟩] [.index]
  | ("handler", "remove") => leaf [] [.index]
  | ("config", "debug") => leaf [] [.onOff]
  | _ => leaf [] []

/-- The command of a name and what was given for it, if nothing is missing. -/
def commandOf? (name : String × String) (g : Given) : Option Command :=
  match name, g.values with
  | ("", "run"), [] => (g.option? "page").map fun page => .run page (g.has "dump")
  | ("", "check"), [schema] => some (.check schema)
  | ("", "fetch"), [url] => some (.fetch url)
  | ("handler", "list"), [] => some .listHandlers
  | ("handler", "add"), [name, schema] => some (.addHandler name schema)
  | ("handler", "update"), [index] =>
    (indexOf? index).map fun i => .updateHandler i (g.option? "name") (g.option? "schema")
  | ("handler", "remove"), [index] => (indexOf? index).map .removeHandler
  | ("config", "show"), [] => some .showSettings
  | ("config", "validate"), [] => some .validateSettings
  | ("config", "reset"), [] => some .resetSettings
  | ("config", "debug"), [mode] => (switchOf? mode).map .setDebug
  | ("counter", "show"), [] => some .showCounter
  | ("counter", "reset"), [] => some .resetCounter
  | _, _ => none

/-- The invocation of a command, with what was given at all levels, the outermost first. -/
def ofGiven (name : String × String) (given : List Given) (last : Given) : Except Refusal Invocation :=
  match commandOf? name last with
  | none => .error .usage
  | some command =>
    let all := given ++ [last]
    .ok ⟨all.reverse.findSome? (·.option? "root"), all.any (·.has "json"), command⟩

/-- Reads the command in a group. -/
def readGroup (outer : Given) (name : String) (words : List String) : Except Refusal Invocation := do
  let title := title ++ "-" ++ name
  match ← (group [name]).read title false .empty words with
  | (_, none) => .error .usage
  | (_, some ("help", words)) => .error (helpOn [name] words)
  | (g, some (command, words)) =>
    let (last, _) ← (levelOf (name, command)).read (title ++ "-" ++ command) false .empty words
    ofGiven (name, command) [outer, g] last

/-- Reads the words of a command line. -/
def read (words : List String) : Except Refusal Invocation := do
  match ← (group []).read title false .empty words with
  | (_, none) => .error .usage
  | (_, some ("help", words)) => .error (helpOn [] words)
  | (g, some (name, words)) =>
    if (namesIn name).isEmpty then
      let (last, _) ← (levelOf ("", name)).read (title ++ "-" ++ name) false .empty words
      ofGiven ("", name) [g] last
    else readGroup g name words

end Invocation

end PageSweep
