import PageSweep.Yaml.Place
import PageSweep.Yaml.Scalar

/-!
# Tokens of YAML

What a document is made of once its columns have been turned into starts and ends, and how the tokens with
names in them are read: anchors and aliases, tags, and the two directives.
-/

namespace PageSweep.Yaml

/-- How a scalar is written. -/
inductive ScalarStyle where
  | plain
  | quoted
  | literal
  | folded
deriving DecidableEq, Inhabited, Repr

inductive Token where
  | version (major minor : Nat)
  /-- What a handle of tags stands for. -/
  | tagHandle (handle full : List Char)
  | documentStart
  | documentEnd
  | listStart
  | mapStart
  /-- The end of a list or a map in block style. -/
  | blockEnd
  | flowListStart
  | flowListEnd
  | flowMapStart
  | flowMapEnd
  | dash
  | comma
  | key
  | value
  | anchor (name : String)
  | aliasTo (name : String)
  | tag (handle suffix : List Char)
  | scalar (style : ScalarStyle) (text : String)
deriving DecidableEq, Inhabited, Repr

namespace Place

/-- Reads the name of an anchor or an alias after its mark. -/
def anchorName? (p : Place) : Option (String × Place) :=
  let start := p.next
  let name := start.rest.takeWhile isNameChar
  let after := start.dropWhile isNameChar
  let ends := endsToken after.rest ||
    after.rest.head?.any fun d => ['?', ':', ',', ']', '\x7d', '%', '@', '\x60'].contains d
  if name.isEmpty || !ends then none else some (String.ofList name, after)

/-! ### Tags -/

/-- Characters that stand for themselves in a tag; those that bound flow style only in some places. -/
def isTagChar (wide : Bool) (c : Char) : Bool :=
  isNameChar c ||
    [';', '/', '?', ':', '@', '&', '=', '+', '$', '.', '%', '!', '~', '*', '\'', '(', ')'].contains c ||
    (wide && (c == ',' || c == '[' || c == ']'))

/-- Reads an octet in hexadecimal. -/
def octet? (p : Place) : Option (Nat × Place) :=
  match p.rest with
  | '%' :: a :: b :: _ => (basedDigits? 16 [a, b]).map fun n => (n, p.drop 3)
  | _ => none

/-- Reads the octets after the first one of a character. -/
def octets? : Nat → Place → Option (List Char × Place)
  | 0, p => some ([], p)
  | n + 1, p => do
    let (octet, p) ← p.octet?
    if octet / 0x40 ≠ 2 then none
    else
      let (more, p) ← octets? n p
      return (Char.ofNat octet :: more, p)

/-- Reads a character given by its octets, each of which is kept as a character of its own. -/
def escapedOctets? (p : Place) : Option (List Char × Place) := do
  let (first, p) ← p.octet?
  let width? :=
    if first < 0x80 then some 0 else if first / 0x20 = 6 then some 1
    else if first / 0x10 = 14 then some 2 else if first / 8 = 30 then some 3 else none
  let (more, p) ← octets? (← width?) p
  return (Char.ofNat first :: more, p)

/-- Reads on in the text of a tag, at most `fuel` characters. -/
def tagTextFrom (wide : Bool) : Nat → List Char → Place → Option (List Char × Place)
  | 0, read, p => some (read, p)
  | fuel + 1, read, p =>
    match p.rest with
    | '%' :: _ => do
      let (octets, p) ← p.escapedOctets?
      tagTextFrom wide fuel (read ++ octets) p
    | c :: _ => if isTagChar wide c then tagTextFrom wide fuel (read ++ [c]) p.next else some (read, p)
    | [] => some (read, p)

/-- Reads the text of a tag after what was taken for its handle, whose first mark does not belong to it. -/
def tagText? (wide : Bool) (head : List Char) (p : Place) : Option (List Char × Place) := do
  let (text, after) ← tagTextFrom wide (p.rest.length + 1) [] p
  if head.isEmpty && text.isEmpty then none else some (head.drop 1 ++ text, after)

/-- Reads a handle at its mark: the mark, a name that may be empty, and perhaps a second mark. -/
def tagHandle (p : Place) : List Char × Place :=
  let name := p.next.rest.takeWhile isNameChar
  let after := p.next.dropWhile isNameChar
  if after.startsWith '!' then ('!' :: name ++ ['!'], after.next) else ('!' :: name, after)

/-- Reads a tag at its mark; one without a handle has an empty one. -/
def tag? (inFlow : Bool) (p : Place) : Option (Token × Place) := do
  let (handle, suffix, after) ←
    match p.rest with
    | _ :: '<' :: _ => do
      let (text, after) ← (p.drop 2).tagText? true []
      if after.startsWith '>' then some ([], text, after.next) else none
    | _ => do
      let (handle, after) := p.tagHandle
      if 1 < handle.length && handle.getLast? == some '!' then
        let (text, after) ← after.tagText? false []
        some (handle, text, after)
      else
        let (text, after) ← after.tagText? false handle
        if text.isEmpty then some ([], ['!'], after) else some (['!'], text, after)
  if endsToken after.rest || (inFlow && after.startsWith ',') then some (.tag handle suffix, after)
  else none

/-! ### Directives -/

/-- Reads a number of at most nine digits. -/
def versionNumber? (p : Place) : Option (Nat × Place) :=
  let digits := p.rest.takeWhile Char.isDigit
  if digits.length ≤ 9 then
    (Number.readDigits? digits).map fun n => (n, p.dropWhile Char.isDigit)
  else none

/-- Reads the version that a directive asks for. -/
def version? (p : Place) : Option (Token × Place) := do
  let (major, p) ← p.versionNumber?
  if p.startsWith '.' then
    let (minor, p) ← p.next.versionNumber?
    return (.version major minor, p)
  else none

/-- Reads a handle and what it stands for. -/
def handleMeaning? (p : Place) : Option (Token × Place) := do
  let (handle, after) := p.tagHandle
  let isHandle := p.startsWith '!' && (handle.length = 1 || handle.getLast? == some '!')
  if isHandle && after.rest.head?.any isBlankChar then
    let (full, after) ← after.dropBlanks.tagText? true []
    if endsToken after.rest then some (.tagHandle handle full, after) else none
  else none

/-- Reads a directive at its mark, with the end of its line. -/
def directive? (p : Place) : Option (Token × Place) := do
  let name := p.next.rest.takeWhile isNameChar
  let after := p.next.dropWhile isNameChar
  if !endsToken after.rest then none
  else
    let (token, after) ←
      if name = ['Y', 'A', 'M', 'L'] then after.dropBlanks.version?
      else if name = ['T', 'A', 'G'] then after.dropBlanks.handleMeaning?
      else none
    let after := after.dropBlanks
    let after := if after.startsWith '#' then after.dropLine else after
    if after.rest.head?.all isBreak then some (token, after.nextLine) else none

end Place

end PageSweep.Yaml
