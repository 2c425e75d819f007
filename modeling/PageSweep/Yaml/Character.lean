import PageSweep.Text.Pieces

/-!
# Characters of a YAML text

Which characters a text may hold at all, which of them end a line, and which mean something by their place.
-/

namespace PageSweep.Yaml

def isBreak (c : Char) : Bool :=
  c == '\n' || c == '\r' || c == '\u0085' || c == '\u2028' || c == '\u2029'

/-- A blank within a line. -/
def isBlankChar (c : Char) : Bool := c == ' ' || c == '\t'

/-- A blank, a break or a tab. -/
def isBlankOrBreak (c : Char) : Bool := isBlankChar c || isBreak c

/-- Whether a character may be written as it is. -/
def isPrintable (c : Char) : Bool :=
  let n := c.toNat
  n == 0x0A || (0x20 ≤ n && n ≤ 0x7E) || (0xA0 ≤ n && n ≤ 0xFFFD && n ≠ 0xFEFF) || 0x10000 ≤ n

/-- Whether a character may stand in a text that is read. -/
def isAllowed (c : Char) : Bool :=
  isPrintable c || c == '\t' || c == '\r' || c == '\u0085' || c == '\ufeff'

/-- Characters that start something else than a plain scalar. -/
def startMarks : List Char :=
  ['#', ',', '[', ']', '\x7b', '\x7d', '&', '*', '!', '|', '>', '\'', '"', '%', '@', '\x60']

/-- Characters that bound the items of lists and maps in flow style. -/
def isFlowMark (c : Char) : Bool :=
  c == ',' || c == '[' || c == ']' || c == '\x7b' || c == '\x7d'

/-- Characters of which names are made. -/
def isNameChar (c : Char) : Bool := c.isAlphanum || c == '_' || c == '-'

/-- Whether a character has a property or there is none. -/
def endOr (p : Char → Bool) : Option Char → Bool
  | none => true
  | some c => p c

/-- Whether a token ends here: at a blank, a break or the end of the text. -/
def endsToken (cs : List Char) : Bool := endOr isBlankOrBreak cs.head?

end PageSweep.Yaml
