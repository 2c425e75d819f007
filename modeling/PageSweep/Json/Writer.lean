import PageSweep.Json.Basic
import PageSweep.Text.Pieces

/-!
# Writing JSON

Two layouts of one value: on one line without blanks, and over several lines with two blanks for each
level, where an empty list or object stays on its line. Only the quote, the backslash and the characters
below the blank are escaped.
-/

namespace PageSweep.Json

open Text

def hexDigit (n : Nat) : Char := if n < 10 then Char.ofNat (48 + n) else Char.ofNat (87 + n)

/-- A character inside a written string. -/
def escape (c : Char) : List Char :=
  if c = '"' then ['\\', '"']
  else if c = '\\' then ['\\', '\\']
  else if c = '\n' then ['\\', 'n']
  else if c = '\r' then ['\\', 'r']
  else if c = '\t' then ['\\', 't']
  else if c = '\x08' then ['\\', 'b']
  else if c = '\x0c' then ['\\', 'f']
  else if c.toNat < 32 then ['\\', 'u', '0', '0', hexDigit (c.toNat / 16), hexDigit (c.toNat % 16)]
  else [c]

def quoted (s : String) : List Char := '"' :: s.toList.flatMap escape ++ ['"']

def scalarChars : Json → List Char
  | null => "null".toList
  | bool b => (if b then "true" else "false").toList
  | int n => (Number.intText n).toList
  | double x => x.text.toList
  | str s => quoted s
  | arr _ => []
  | obj _ => []

mutual
/-- One line, no blanks. -/
def compactChars : Json → List Char
  | arr items => '[' :: joinList [','] (compactItems items) ++ [']']
  | obj fields => '\x7b' :: joinList [','] (compactFields fields) ++ ['\x7d']
  | v => scalarChars v

def compactItems : List Json → List (List Char)
  | [] => []
  | v :: vs => compactChars v :: compactItems vs

def compactFields : List (String × Json) → List (List Char)
  | [] => []
  | (k, v) :: fs => (quoted k ++ ':' :: compactChars v) :: compactFields fs
end

def newline (depth : Nat) : List Char := '\n' :: List.replicate (2 * depth) ' '

/-- Pieces between brackets, each on a line of its own one level deeper. -/
def bracketed (left right : Char) (depth : Nat) (pieces : List (List Char)) : List Char :=
  if pieces.isEmpty then [left, right]
  else left :: newline (depth + 1) ++ joinList (',' :: newline (depth + 1)) pieces ++
    newline depth ++ [right]

mutual
/-- Several lines, for a value that stands `depth` levels deep. -/
def indentedChars (depth : Nat) : Json → List Char
  | arr items => bracketed '[' ']' depth (indentedItems depth items)
  | obj fields => bracketed '\x7b' '\x7d' depth (indentedFields depth fields)
  | v => scalarChars v

def indentedItems (depth : Nat) : List Json → List (List Char)
  | [] => []
  | v :: vs => indentedChars (depth + 1) v :: indentedItems depth vs

def indentedFields (depth : Nat) : List (String × Json) → List (List Char)
  | [] => []
  | (k, v) :: fs => (quoted k ++ ':' :: ' ' :: indentedChars (depth + 1) v) :: indentedFields depth fs
end

def compact (v : Json) : String := String.ofList (compactChars v)

def indented (v : Json) : String := String.ofList (indentedChars 0 v)

end PageSweep.Json
