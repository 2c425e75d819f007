import PageSweep.Json.Basic
import PageSweep.Text.Quoted
import PageSweep.Yaml.Character
import PageSweep.Yaml.Scalar

/-!
# Writing YAML

Block style with two blanks for each level; a list under a key is not indented. A text is written plain where
that reads back as the same text, otherwise in single quotes, in double quotes if it holds what those cannot
show, and as a literal block if it has several lines. A key too long or of several lines stands after `?`.
-/

namespace PageSweep.Yaml

open Number Text

/-- Each character with the one before and the one after it, if there are any. -/
def inContext (before : Option Char) : List Char → List (Option Char × Char × Option Char)
  | [] => []
  | c :: cs => (before, c, cs.head?) :: inContext (some c) cs

/-- Whether a character would end or turn a plain scalar. -/
def turnsPlain : Option Char × Char × Option Char → Bool
  | (none, c, after) =>
    startMarks.contains c || ((c == '?' || c == ':' || c == '-') && endOr isBlankOrBreak after)
  | (some before, c, after) =>
    (c == ':' && endOr isBlankOrBreak after) || (c == '#' && isBlankOrBreak before)

/-- Whether two characters follow each other somewhere. -/
def hasPair (p q : Char → Bool) (cs : List Char) : Bool :=
  (inContext none cs).any fun x => p x.2.1 && x.2.2.any q

def startsOrEnds (p : Char → Bool) (cs : List Char) : Bool := cs.head?.any p || cs.getLast?.any p

def isMultiline (cs : List Char) : Bool := cs.any isBreak

/-- Whether a text holds what only escapes can show. -/
def needsEscapes (cs : List Char) : Bool :=
  cs.any (!isPrintable ·) || hasPair (· == ' ') isBreak cs

def plainAllowed (cs : List Char) : Bool :=
  !(startsWithList "---".toList cs || startsWithList "...".toList cs) &&
    !(inContext none cs).any turnsPlain && !startsOrEnds (fun c => c == ' ' || isBreak c) cs &&
    !isMultiline cs && !needsEscapes cs

def singleAllowed (cs : List Char) : Bool := !hasPair isBreak (· == ' ') cs && !needsEscapes cs

def literalAllowed (cs : List Char) : Bool :=
  !cs.isEmpty && !cs.getLast?.any (· == ' ') && !needsEscapes cs

inductive Style where
  | plain
  | single
  | double
  | literal
deriving DecidableEq

/-- How a text is written. -/
def styleOf (s : String) : Style :=
  let cs := s.toList
  -- Several lines are shown as lines wherever that is possible.
  if cs.contains '\n' then (if literalAllowed cs then .literal else .double)
  else if !readsOtherwise s && plainAllowed cs then .plain
  else if singleAllowed cs then .single
  else .double

/-! ### Scalars -/

def upperHex (width n : Nat) : List Char :=
  let ds := (hexDigits n).map Char.toUpper
  List.replicate (width - ds.length) '0' ++ ds

/-- Characters with an escape of their own. -/
def namedEscape? (c : Char) : Option Char :=
  match c.toNat with
  | 0x00 => some '0'
  | 0x07 => some 'a'
  | 0x08 => some 'b'
  | 0x09 => some 't'
  | 0x0A => some 'n'
  | 0x0B => some 'v'
  | 0x0C => some 'f'
  | 0x0D => some 'r'
  | 0x1B => some 'e'
  | 0x22 => some '"'
  | 0x5C => some '\\'
  | 0x85 => some 'N'
  | 0xA0 => some '_'
  | 0x2028 => some 'L'
  | 0x2029 => some 'P'
  | _ => none

def doubleChar (c : Char) : List Char :=
  if isPrintable c && !isBreak c && c ≠ '"' && c ≠ '\\' then [c]
  else match namedEscape? c with
    | some e => ['\\', e]
    | none =>
      let n := c.toNat
      if n ≤ 0xFF then '\\' :: 'x' :: upperHex 2 n
      else if n ≤ 0xFFFF then '\\' :: 'u' :: upperHex 4 n
      else '\\' :: 'U' :: upperHex 8 n

def spaces (n : Nat) : List Char := List.replicate n ' '

/-- In single quotes, a quote twice; what follows a break is indented, and a line end doubled. -/
def singleChars (indent : Nat) (afterBreak : Bool) : List Char → List Char
  | [] => if afterBreak then spaces indent else []
  | c :: cs =>
    if isBreak c then
      (if c = '\n' && !afterBreak then ['\n', c] else [c]) ++ singleChars indent true cs
    else
      (if afterBreak && c ≠ ' ' then spaces indent else []) ++
        (if c = '\'' then ['\'', '\''] else [c]) ++
        singleChars indent (afterBreak && c == ' ') cs

/-- The lines of a literal block, each one that is not empty indented. -/
def literalLines (indent : Nat) (afterBreak : Bool) : List Char → List Char
  | [] => []
  | c :: cs =>
    if isBreak c then c :: literalLines indent true cs
    else (if afterBreak then spaces indent else []) ++ c :: literalLines indent false cs

/-- What the head of a literal block says of its first and its last characters. -/
def literalHints (cs : List Char) : List Char :=
  -- A text that starts with a blank or a break would set the indentation wrong, so it is given.
  let indent := if cs.head?.any fun c => c == ' ' || isBreak c then ['2'] else []
  let chomp := match cs.reverse with
    | [] => ['-']
    | [c] => if isBreak c then ['+'] else ['-']
    | c :: d :: _ => if !isBreak c then ['-'] else if isBreak d then ['+'] else []
  indent ++ chomp

/-- A text in its style, for lines that are indented so far. -/
def scalarChars (indent : Nat) (s : String) : List Char :=
  let cs := s.toList
  match styleOf s with
  | .plain => cs
  | .single => '\'' :: singleChars indent false cs ++ ['\'']
  | .double => '"' :: cs.flatMap doubleChar ++ ['"']
  | .literal => '|' :: literalHints cs ++ '\n' :: literalLines indent true cs

/-! ### Lists and maps -/

/-- The greatest length in bytes of a key without a mark. -/
def simpleKeyLimit : Nat := 128

def isSimpleKey (k : String) : Bool :=
  !isMultiline k.toList && byteLength k.toList ≤ simpleKeyLimit

/-- Text on a new line, so far indented; a text that ends with a line end needs no other. -/
def onNewLine (text : List Char) (indent : Nat) (next : List Char) : List Char :=
  text ++ (if text.getLast?.any isBreak then [] else ['\n']) ++ spaces indent ++ next

/-- Pieces on lines of their own. -/
def onLines (indent : Nat) : List (List Char) → List Char
  | [] => []
  | [p] => p
  | p :: q :: ps => onNewLine p indent (onLines indent (q :: ps))

mutual
/-- A value whose first line starts in a column, `indent` blanks from the left. -/
def blockChars (indent : Nat) : Json → List Char
  | .null => "null".toList
  | .bool b => (if b then "true" else "false").toList
  | .int n => (intText n).toList
  | .double x => x.text.toList
  | .str s => scalarChars indent s
  | .arr [] => ['[', ']']
  | .arr (v :: vs) => onLines indent (itemChars indent (v :: vs))
  | .obj [] => ['\x7b', '\x7d']
  | .obj (f :: fs) => onLines indent (fieldChars indent (f :: fs))

def itemChars (indent : Nat) : List Json → List (List Char)
  | [] => []
  | v :: vs => ('-' :: ' ' :: blockChars (indent + 2) v) :: itemChars indent vs

def fieldChars (indent : Nat) : List (String × Json) → List (List Char)
  | [] => []
  | (k, v) :: fs =>
    (if isSimpleKey k then scalarChars (indent + 2) k ++ ':' :: valueChars indent v
     else onNewLine ('?' :: ' ' :: scalarChars (indent + 2) k) indent
       (':' :: ' ' :: blockChars (indent + 2) v)) ::
    fieldChars indent fs

/-- What follows a key and its colon: a list stands below the key, a map below and further right. -/
def valueChars (indent : Nat) : Json → List Char
  | .arr (v :: vs) => '\n' :: spaces indent ++ onLines indent (itemChars indent (v :: vs))
  | .obj (f :: fs) => '\n' :: spaces (indent + 2) ++ onLines (indent + 2) (fieldChars (indent + 2) (f :: fs))
  | v => ' ' :: blockChars (indent + 2) v
end

/-- A document of one value. -/
def write (v : Json) : String :=
  let cs := blockChars 0 v
  String.ofList (cs ++ if cs.getLast?.any isBreak then [] else ['\n'])

end PageSweep.Yaml
