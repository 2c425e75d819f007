import PageSweep.Yaml.Character

/-!
# Places in a YAML text

Indentation is meaning, so a place knows its column; a key and its colon stand on one line and not far from
each other, so it knows its line and the number of bytes before it too.

Between tokens lie blanks, comments and line ends. A tab counts as a blank only where no key may begin, and
in block style a key may begin after a line end.
-/

namespace PageSweep.Yaml

open Text

structure Place where
  rest : List Char
  /-- The bytes before it. -/
  offset : Nat
  line : Nat
  column : Nat

/-- How a line end is kept: those of two kinds as they are, all others as one. -/
def breakChar (c : Char) : Char := if c == '\u2028' || c == '\u2029' then c else '\n'

namespace Place

def start (cs : List Char) : Place := ⟨cs, 0, 0, 0⟩

/-- The place after one character of the same line. -/
def next (p : Place) : Place :=
  match p.rest with
  | [] => p
  | c :: cs => ⟨cs, p.offset + c.utf8Size, p.line, p.column + 1⟩

/-- The place after so many characters of the same line. -/
def drop : Nat → Place → Place
  | 0, p => p
  | n + 1, p => drop n p.next

/-- The place after the characters of this line that have a property. -/
def dropWhile (keep : Char → Bool) (p : Place) : Place := p.drop (p.rest.takeWhile keep).length

/-- The place after a line end; a return with a feed after it is one line end. -/
def nextLine (p : Place) : Place :=
  match p.rest with
  | '\r' :: '\n' :: cs => ⟨cs, p.offset + 2, p.line + 1, 0⟩
  | c :: cs => ⟨cs, p.offset + c.utf8Size, p.line + 1, 0⟩
  | [] => p

/-- The place after the blanks of a line. -/
def dropBlanks (p : Place) : Place := p.dropWhile isBlankChar

/-- The place at the end of the line. -/
def dropLine (p : Place) : Place := p.dropWhile (!isBreak ·)

def startsWith (c : Char) (p : Place) : Bool := p.rest.head? == some c

/-- Whether a mark of three characters in the first column bounds a document here. -/
def isAtMark (mark : List Char) (p : Place) : Bool :=
  p.column == 0 && (after? mark p.rest).any endsToken

def startMark : List Char := ['-', '-', '-']

def endMark : List Char := ['.', '.', '.']

def isAtBound (p : Place) : Bool := p.isAtMark startMark || p.isAtMark endMark

/-- Passes over what lies between tokens, `comment` telling whether a comment is being passed over: whether
a key may begin then, and the place. -/
def skipFrom (inFlow : Bool) (offset line column : Nat) (keyAllowed comment : Bool) :
    List Char → Bool × Place
  | [] => (keyAllowed, ⟨[], offset, line, column⟩)
  | '\r' :: '\n' :: cs => skipFrom inFlow (offset + 2) (line + 1) 0 (keyAllowed || !inFlow) false cs
  | c :: cs =>
    let isBlank := c == ' ' || (c == '\t' && (inFlow || !keyAllowed)) || (c == '\ufeff' && column == 0)
    if isBreak c then
      skipFrom inFlow (offset + c.utf8Size) (line + 1) 0 (keyAllowed || !inFlow) false cs
    else if comment || isBlank then
      skipFrom inFlow (offset + c.utf8Size) line (column + 1) keyAllowed comment cs
    else if c == '#' then skipFrom inFlow (offset + 1) line (column + 1) keyAllowed true cs
    else (keyAllowed, ⟨c :: cs, offset, line, column⟩)

def skip (inFlow keyAllowed : Bool) (p : Place) : Bool × Place :=
  skipFrom inFlow p.offset p.line p.column keyAllowed false p.rest

end Place

end PageSweep.Yaml
