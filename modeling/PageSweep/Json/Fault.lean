import PageSweep.Json.Basic
import PageSweep.Text.Pieces
import PageSweep.Text.Quoted

/-!
# Why a text is not the JSON that was asked for

A reader stops at the first fault and says where: the rest of the text when it noticed, and how many bytes
beyond that it points. Line and column count bytes, the column from the last line end.

A `Mismatch` is a value of the wrong form; it has a place only when it was found while reading text.
-/

namespace PageSweep

open Number Text

/-- What stands where something else was expected. -/
inductive Found where
  | null
  | bool (b : Bool)
  | int (n : Int)
  | double (x : Binary64)
  | str (s : String)
  | list
  | map
deriving DecidableEq, Repr

def Found.text : Found → String
  | null => "null"
  | bool b => "boolean `" ++ (if b then "true" else "false") ++ "`"
  | int n => "integer `" ++ intText n ++ "`"
  | double x => "floating point `" ++ x.text ++ "`"
  | str s => "string " ++ quote s
  | list => "sequence"
  | map => "map"

/-- A value of the wrong form. -/
inductive Mismatch where
  | wrongType (found : Found) (expected : String)
  | wrongValue (found : Found) (expected : String)
  | wrongLength (length : Nat) (expected : String)
  | missing (field : String)
  | duplicate (field : String)
  | unknownVariant (name : String) (known : List String)
deriving DecidableEq, Repr

def Mismatch.message : Mismatch → String
  | wrongType found expected => "invalid type: " ++ found.text ++ ", expected " ++ expected
  | wrongValue found expected => "invalid value: " ++ found.text ++ ", expected " ++ expected
  | wrongLength n expected => "invalid length " ++ natText n ++ ", expected " ++ expected
  | missing field => "missing field `" ++ field ++ "`"
  | duplicate field => "duplicate field `" ++ field ++ "`"
  | unknownVariant name known =>
    "unknown variant `" ++ name ++ "`, expected one of " ++
      join ", " (known.map fun k => "`" ++ k ++ "`")

namespace Json

inductive Cause where
  | endInValue | endInString | endInList | endInObject
  | expectedValue | expectedIdent | expectedColon | expectedListEnd | expectedObjectEnd
  | keyNotString | trailingComma | trailingCharacters
  | invalidNumber | numberOutOfRange
  | invalidEscape | loneSurrogate | endOfEscape | controlCharacter
  | tooDeep
  | mismatch (m : Mismatch)
deriving DecidableEq, Repr

def Cause.message : Cause → String
  | endInValue => "EOF while parsing a value"
  | endInString => "EOF while parsing a string"
  | endInList => "EOF while parsing a list"
  | endInObject => "EOF while parsing an object"
  | expectedValue => "expected value"
  | expectedIdent => "expected ident"
  | expectedColon => "expected `:`"
  | expectedListEnd => "expected `,` or `]`"
  | expectedObjectEnd => "expected `,` or `\x7d`"
  | keyNotString => "key must be a string"
  | trailingComma => "trailing comma"
  | trailingCharacters => "trailing characters"
  | invalidNumber => "invalid number"
  | numberOutOfRange => "number out of range"
  | invalidEscape => "invalid escape"
  | loneSurrogate => "lone leading surrogate in hex escape"
  | endOfEscape => "unexpected end of hex escape"
  | controlCharacter => "control character (\\u0000-\\u001F) found while parsing a string"
  | tooDeep => "recursion limit exceeded"
  | mismatch m => m.message

/-- A cause, the rest of the text when it was noticed, and how many bytes further it points. -/
structure Fault where
  cause : Cause
  rest : List Char
  ahead : Nat
deriving DecidableEq, Repr

/-- A reader takes text and gives a value and the rest of the text. -/
abbrev Step (α : Type) := List Char → Except Fault (α × List Char)

/-- A fault at the rest of the text. -/
def faultAt {α : Type} (cause : Cause) (rest : List Char) : Except Fault α := .error ⟨cause, rest, 0⟩

/-- A fault that points at the next byte. -/
def faultNext {α : Type} (cause : Cause) (rest : List Char) : Except Fault α := .error ⟨cause, rest, 1⟩

/-- Line and column, from 1 and 0, of the place so many bytes into a text. -/
def place (bytes : Nat) (line column : Nat) : List Char → Nat × Nat
  | [] => (line, column)
  | c :: cs =>
    if bytes < c.utf8Size then (line, column + bytes)
    else if c = '\n' then place (bytes - 1) (line + 1) 0 cs
    else place (bytes - c.utf8Size) line (column + c.utf8Size) cs

/-- A failure to read JSON, with its place if it has one. -/
structure Error where
  cause : Cause
  at? : Option (Nat × Nat)
deriving DecidableEq, Repr

def Error.message (e : Error) : String :=
  match e.at? with
  | none => e.cause.message
  | some (line, column) =>
    e.cause.message ++ " at line " ++ natText line ++ " column " ++ natText column

/-- The failure that a fault in a text amounts to. -/
def Fault.locate (text : List Char) (f : Fault) : Error :=
  ⟨f.cause, some (place (byteLength text - byteLength f.rest + f.ahead) 1 0 text)⟩

/-- A mismatch found in a value, which has no place. -/
def Error.ofMismatch (m : Mismatch) : Error := ⟨.mismatch m, none⟩

end Json

end PageSweep
