import PageSweep.Yaml.Place
import PageSweep.Yaml.Scalar

/-!
# The texts of scalars

How the text of a scalar is read at its first character, for each way to write one. In plain and in quoted
scalars a line end folds to a blank and further ones stay; block scalars keep their lines, or fold them
where two of them start without a blank.
-/

namespace PageSweep.Yaml

/-- What was passed over since the last character of a scalar: blanks, or breaks with blanks among them. -/
inductive Gap where
  | blanks (reversed : List Char)
  | breaks (first : Option Char) (further : List Char)

namespace Gap

/-- A line end folds to a blank, further ones stay. -/
def fold : Gap → List Char
  | blanks reversed => reversed.reverse
  | breaks (some '\n') [] => [' ']
  | breaks (some '\n') further => further
  | breaks first further => first.toList ++ further

def withBreak (c : Char) : Gap → Gap
  | blanks _ => breaks (some (breakChar c)) []
  | breaks first further => breaks first (further ++ [breakChar c])

/-- Blanks count only if no break came before them. -/
def withBlank (c : Char) : Gap → Gap
  | blanks reversed => blanks (c :: reversed)
  | gap => gap

def isEmpty : Gap → Bool
  | blanks reversed => reversed.isEmpty
  | breaks _ _ => false

def hasBreak : Gap → Bool
  | blanks _ => false
  | breaks _ _ => true

end Gap

/-! ### Plain scalars -/

/-- Whether a plain scalar can begin with a text. -/
def startsPlain (inFlow : Bool) : List Char → Bool
  | [] => false
  | c :: cs =>
    if c == '-' then !endsToken cs
    else if c == '?' || c == ':' then !inFlow && !endsToken cs
    else !isBlankOrBreak c && !startMarks.contains c

/-- Whether a plain scalar ends before a character, after a gap and in a column. -/
def endsPlain (inFlow : Bool) (low : Nat) (gap : Gap) (p : Place) (c : Char) (cs : List Char) : Bool :=
  -- A line that starts further left belongs to what is around.
  (gap.hasBreak && !inFlow && p.column < low) || (gap.hasBreak && p.isAtBound) ||
    -- A comment needs a blank before it.
    (!gap.isEmpty && c == '#') || (c == ':' && endsToken cs) || (inFlow && isFlowMark c)

/-- Reads on in a plain scalar, at most `fuel` characters: what is read so far in reverse, the gap after it,
and the place after the gap. -/
def plainFrom (inFlow : Bool) (low : Nat) : Nat → List Char → Gap → Place → Option (List Char × Gap × Place)
  | 0, read, gap, p => some (read, gap, p)
  | fuel + 1, read, gap, p =>
    match p.rest with
    | [] => some (read, gap, p)
    | c :: cs =>
      if isBreak c then plainFrom inFlow low fuel read (gap.withBreak c) p.nextLine
      else if isBlankChar c then
        -- A tab is no indentation.
        if c == '\t' && gap.hasBreak && p.column < low then none
        else plainFrom inFlow low fuel read (gap.withBlank c) p.next
      else if inFlow && c == ':' && cs.head?.any (fun d => isFlowMark d || d == '?') then none
      else if endsPlain inFlow low gap p c cs then some (read, gap, p)
      else plainFrom inFlow low fuel (c :: (gap.fold.reverse ++ read)) (.blanks []) p.next

/-- Reads a plain scalar, whose further lines start in column `low` at least: its text, whether a line end
was passed over after it, and the place. -/
def plain? (inFlow : Bool) (low : Nat) (p : Place) : Option (String × Bool × Place) :=
  if startsPlain inFlow p.rest then
    (plainFrom inFlow low (p.rest.length + 1) [] (.blanks []) p).map fun (read, gap, after) =>
      (String.ofList read.reverse, gap.hasBreak, after)
  else none

/-! ### Quoted scalars -/

/-- The character that so many hexadecimal digits name, and how many there are. -/
def hexChar? (width : Nat) (cs : List Char) : Option (Char × Nat) := do
  let n ← basedDigits? 16 (cs.take width)
  if (cs.take width).length < width || (0xD800 ≤ n && n ≤ 0xDFFF) || 0x10FFFF < n then none
  else some (Char.ofNat n, width)

/-- Reads an escape after its backslash: the character, and how many it is written with. -/
def escape? : List Char → Option (Char × Nat)
  | [] => none
  | c :: cs =>
    match c with
    | '0' => some (Char.ofNat 0, 1)
    | 'a' => some ('\x07', 1)
    | 'b' => some ('\x08', 1)
    | 't' => some ('\t', 1)
    | '\t' => some ('\t', 1)
    | 'n' => some ('\n', 1)
    | 'v' => some ('\x0b', 1)
    | 'f' => some ('\x0c', 1)
    | 'r' => some ('\r', 1)
    | 'e' => some ('\x1b', 1)
    | ' ' => some (' ', 1)
    | '"' => some ('"', 1)
    | '/' => some ('/', 1)
    | '\\' => some ('\\', 1)
    | 'N' => some ('\u0085', 1)
    | '_' => some ('\u00a0', 1)
    | 'L' => some ('\u2028', 1)
    | 'P' => some ('\u2029', 1)
    | 'x' => (hexChar? 2 cs).map fun (e, n) => (e, n + 1)
    | 'u' => (hexChar? 4 cs).map fun (e, n) => (e, n + 1)
    | 'U' => (hexChar? 8 cs).map fun (e, n) => (e, n + 1)
    | _ => none

/-- Reads on in a quoted scalar, at most `fuel` characters. -/
def quotedFrom (quote : Char) : Nat → List Char → Gap → Place → Option (String × Place)
  | 0, _, _, _ => none
  | fuel + 1, read, gap, p =>
    match p.rest with
    | [] => none
    | c :: cs =>
      let joined := gap.fold.reverse ++ read
      if isBreak c then quotedFrom quote fuel read (gap.withBreak c) p.nextLine
      else if isBlankChar c then quotedFrom quote fuel read (gap.withBlank c) p.next
      else if p.isAtBound then none
      else if c == quote then
        match quote, cs with
        | '\'', '\'' :: _ => quotedFrom quote fuel ('\'' :: joined) (.blanks []) (p.drop 2)
        | _, _ => some (String.ofList joined.reverse, p.next)
      else if quote == '"' && c == '\\' then
        -- A break after a backslash is no break, and the blanks before it stay.
        if cs.head?.any isBreak then quotedFrom quote fuel joined (.breaks none []) p.next.nextLine
        else match escape? cs with
          | none => none
          | some (e, n) => quotedFrom quote fuel (e :: joined) (.blanks []) (p.next.drop n)
      else quotedFrom quote fuel (c :: joined) (.blanks []) p.next

/-- Reads a quoted scalar at its opening quote. -/
def quoted? (quote : Char) (p : Place) : Option (String × Place) :=
  quotedFrom quote (p.rest.length + 1) [] (.blanks []) p.next

/-! ### Block scalars -/

/-- What the head of a block scalar says: its indentation, and which line ends at its end stay. -/
structure BlockHead where
  indent : Option Nat
  /-- None of them, one, or all. -/
  keep : Option Bool

/-- Reads the marks after `|` or `>`, of which there are at most two. -/
def blockHead (cs : List Char) : BlockHead × Nat :=
  let chomp (c : Char) : Option (Option Bool) :=
    if c == '-' then some none else if c == '+' then some (some true) else none
  let digit (c : Char) : Option Nat :=
    if c.isDigit && c ≠ '0' then some (Number.digitValue c) else none
  match cs with
  | [] => (⟨none, some false⟩, 0)
  | a :: r =>
    match chomp a, digit a with
    | some k, _ => match r.head?.bind digit with
      | some d => (⟨some d, k⟩, 2)
      | none => (⟨none, k⟩, 1)
    | none, some d => match r.head?.bind chomp with
      | some k => (⟨some d, k⟩, 2)
      | none => (⟨some d, some false⟩, 1)
    | none, none => (⟨none, some false⟩, 0)

/-- Passes over lines that are empty up to a column, which is unknown at first, at most `fuel` characters:
the breaks, the greatest column met, and the place where a line goes on; none at a tab in the indentation. -/
def blankLines (indent? : Option Nat) : Nat → List Char → Nat → Place → Option (List Char × Nat × Place)
  | 0, breaks, greatest, p => some (breaks, greatest, p)
  | fuel + 1, breaks, greatest, p =>
    let inside := indent?.all fun n => p.column < n
    match p.rest with
    | [] => some (breaks, max greatest p.column, p)
    | c :: _ =>
      if c == ' ' && inside then blankLines indent? fuel breaks greatest p.next
      else if c == '\t' && inside then none
      else if isBreak c then
        blankLines indent? fuel (breaks ++ [breakChar c]) (max greatest p.column) p.nextLine
      else some (breaks, max greatest p.column, p)

/-- What was read of a block scalar: its text, the line end after it and the breaks after that. -/
structure BlockText where
  read : List Char
  lead : Option Char
  trail : List Char
  /-- Whether its last line starts with a blank. -/
  blankStart : Bool

/-- What stands between two lines; they fold only if neither starts with a blank. -/
def BlockText.joint (t : BlockText) (literal blankStart : Bool) : List Char :=
  if !literal && t.lead == some '\n' && !t.blankStart && !blankStart then
    (if t.trail.isEmpty then [' '] else t.trail)
  else t.lead.toList ++ t.trail

/-- Reads on in the lines of a block scalar, at most `fuel` of them. -/
def blockLines (literal : Bool) (indent : Nat) : Nat → BlockText → Place → Option (BlockText × Place)
  | 0, t, p => some (t, p)
  | fuel + 1, t, p =>
    if p.column ≠ indent || p.rest.isEmpty then some (t, p)
    else do
      let blankStart := p.rest.head?.any isBlankChar
      let read := t.read ++ t.joint literal blankStart ++ p.rest.takeWhile (!isBreak ·)
      let ending := p.dropLine
      let (trail, _, after) ← blankLines (some indent) (ending.rest.length + 1) [] 0 ending.nextLine
      blockLines literal indent fuel ⟨read, ending.rest.head?.map breakChar, trail, blankStart⟩ after

/-- Reads a block scalar at its mark; `low` is the least column its text can have. -/
def block? (low : Nat) (p : Place) : Option (String × Place) := do
  let literal := p.startsWith '|'
  let (head, width) := blockHead (p.rest.drop 1)
  let after := (p.drop (width + 1)).dropBlanks
  let after := if after.startsWith '#' then after.dropLine else after
  if !after.rest.head?.all isBreak then none
  else
    let given? := head.indent.map fun n => low - 1 + n
    let (breaks, greatest, start) ←
      blankLines given? (after.rest.length + 1) [] 0 after.nextLine
    -- Without a mark the first line that is not empty sets the indentation.
    let indent := given?.getD (max (max greatest low) 1)
    let (t, last) ← blockLines literal indent (start.rest.length + 1) ⟨[], none, breaks, false⟩ start
    let tail := match head.keep with
      | none => []
      | some false => t.lead.toList
      | some true => t.lead.toList ++ t.trail
    some (String.ofList (t.read ++ tail), last)

end PageSweep.Yaml
