import PageSweep.Yaml.ScalarText
import PageSweep.Yaml.Token

/-!
# Layout

A document laid out in columns becomes a list of tokens in which each list and map has a start and an end.

A list or a map in block style starts where its first dash or key stands, if that is further right than
the one around it, and ends where something stands further left. Whether a key stands somewhere is known
only at the colon after it: until then the place is a candidate. The colon must come on the same line and
within 1024 bytes.

Anything else is no document, and why is not told.
-/

namespace PageSweep.Yaml

/-- A place where a key may have begun. -/
structure Candidate where
  /-- The number of tokens before it. -/
  position : Nat
  /-- Whether nothing but a key can stand there. -/
  required : Bool
  offset : Nat
  line : Nat
  column : Nat

structure Layout where
  place : Place
  /-- The tokens read so far, the last one first. -/
  tokens : List Token
  /-- The columns of the lists and maps in block style that are open, the innermost first. -/
  columns : List Nat
  /-- Whether a key may begin here. -/
  keyAllowed : Bool
  /-- The candidate of the innermost flow style. -/
  candidate : Option Candidate
  /-- Those of the flow styles around it, and at last that of block style. -/
  outer : List (Option Candidate)

namespace Layout

/-- The greatest distance between a key and its colon. -/
def keyLimit : Nat := 1024

def start (cs : List Char) : Layout := ⟨.start cs, [], [], true, none, []⟩

def inFlow (l : Layout) : Bool := !l.outer.isEmpty

/-- The least column of what belongs to the innermost list or map in block style. -/
def low (l : Layout) : Nat := (l.columns.head?.map (· + 1)).getD 0

def push (token : Token) (l : Layout) : Layout := { l with tokens := token :: l.tokens }

/-- Puts a token before all but the first so many ones. -/
def insert (position : Nat) (token : Token) (l : Layout) : Layout :=
  let later := l.tokens.length - position
  { l with tokens := l.tokens.take later ++ token :: l.tokens.drop later }

/-! ### Candidates -/

/-- A candidate with a colon no longer in reach is none; nothing is read if it had to be a key. -/
def Candidate.refresh? (place : Place) : Option Candidate → Option (Option Candidate)
  | none => some none
  | some c =>
    if c.line < place.line || c.offset + keyLimit < place.offset then
      (if c.required then none else some none)
    else some (some c)

/-- Gives up what is no longer in reach. -/
def refresh? (l : Layout) : Option Layout := do
  let candidate ← Candidate.refresh? l.place l.candidate
  let outer ← l.outer.mapM (Candidate.refresh? l.place)
  return { l with candidate := candidate, outer := outer }

/-- Gives up the candidate of the innermost style. -/
def forget? (l : Layout) : Option Layout :=
  if l.candidate.any (·.required) then none else some { l with candidate := none }

/-- Notes this place as one where a key may begin, if one may. -/
def note? (l : Layout) : Option Layout :=
  if !l.keyAllowed then some l
  else do
    let l ← l.forget?
    let required := !l.inFlow && l.columns.head? == some l.place.column
    return { l with
      candidate := some
        ⟨l.tokens.length, required, l.place.offset, l.place.line, l.place.column⟩ }

/-! ### Columns -/

/-- Starts a list or a map in block style at a position of the tokens, unless one is open in this column or
further right. -/
def openAt (column position : Nat) (token : Token) (l : Layout) : Layout :=
  if l.inFlow || column < l.low then l
  else { l.insert position token with columns := column :: l.columns }

/-- Starts a list or a map in block style here, where none can start within a line of something else. -/
def openHere? (token : Token) (l : Layout) : Option Layout :=
  if l.inFlow then some l
  else if !l.keyAllowed then none
  else some (l.openAt l.place.column l.tokens.length token)

/-- Ends the lists and maps in block style that are open, up to one that something holds of. -/
def closeUntil (stay : Nat → Bool) (l : Layout) : Layout :=
  if l.inFlow then l
  else { l with
    tokens := (l.columns.takeWhile (!stay ·)).map (fun _ => .blockEnd) ++ l.tokens
    columns := l.columns.dropWhile (!stay ·) }

/-- Ends those that stand further right than this place. -/
def closeHere (l : Layout) : Layout := l.closeUntil (· ≤ l.place.column)

def closeAll (l : Layout) : Layout := l.closeUntil fun _ => false

/-! ### Tokens -/

/-- Passes over one character, which is a token. -/
def mark (token : Token) (l : Layout) : Layout := { l.push token with place := l.place.next }

/-- Takes a token that was read, with the place after it. -/
def take (keyAllowed : Bool) (read : Token × Place) (l : Layout) : Layout :=
  { l.push read.1 with place := read.2, keyAllowed := keyAllowed }

def directive? (l : Layout) : Option Layout := do
  let l ← l.closeAll.forget?
  return l.take false (← l.place.directive?)

/-- A mark that bounds a document. -/
def bound? (token : Token) (l : Layout) : Option Layout := do
  let l ← l.closeAll.forget?
  return l.take false (token, l.place.drop 3)

def openFlow? (token : Token) (l : Layout) : Option Layout := do
  let l ← l.note?
  return { l.mark token with keyAllowed := true, candidate := none, outer := l.candidate :: l.outer }

def closeFlow? (token : Token) (l : Layout) : Option Layout := do
  let l := { ← l.forget? with keyAllowed := false }
  match l.outer with
  | [] => return l.mark token
  | candidate :: outer => return { l.mark token with candidate := candidate, outer := outer }

def comma? (l : Layout) : Option Layout := do
  return { (← l.forget?).mark .comma with keyAllowed := true }

def dash? (l : Layout) : Option Layout := do
  let l ← (← l.openHere? .listStart).forget?
  return { l.mark .dash with keyAllowed := true }

/-- The mark of a key that needs no colon on its line. -/
def key? (l : Layout) : Option Layout := do
  let l ← (← l.openHere? .mapStart).forget?
  return { l.mark .key with keyAllowed := !l.inFlow }

/-- A colon makes a key of the candidate; without one the key went before, or is empty. -/
def value? (l : Layout) : Option Layout :=
  match l.candidate with
  | some c =>
    let l := (l.insert c.position .key).openAt c.column c.position .mapStart
    some { l.mark .value with keyAllowed := false, candidate := none }
  | none => do
    let l ← l.openHere? .mapStart
    return { l.mark .value with keyAllowed := !l.inFlow }

/-- A token that may be a key or stand before one. -/
def keyPart? (read : Place → Option (Token × Place)) (l : Layout) : Option Layout := do
  let l ← l.note?
  return l.take false (← read l.place)

def plain? (l : Layout) : Option Layout := do
  let l ← l.note?
  let (text, hasBreak, after) ← Yaml.plain? l.inFlow l.low l.place
  -- After a line end a key may begin again.
  return l.take hasBreak (.scalar .plain text, after)

def block? (style : ScalarStyle) (l : Layout) : Option Layout := do
  let l ← l.forget?
  let (text, after) ← Yaml.block? l.low l.place
  return l.take true (.scalar style text, after)

def quoted? (quote : Char) (l : Layout) : Option Layout :=
  l.keyPart? fun p => (Yaml.quoted? quote p).map fun (text, after) => (.scalar .quoted text, after)

/-- Whether an indicator stands here by itself; in flow style anything may follow it. -/
def standsAlone (l : Layout) : Bool := l.inFlow || endsToken (l.place.rest.drop 1)

/-- Reads one token, which begins with a character. -/
def token? (c : Char) (l : Layout) : Option Layout :=
  if l.place.column == 0 && c == '%' then l.directive?
  else if l.place.isAtMark Place.startMark then l.bound? .documentStart
  else if l.place.isAtMark Place.endMark then l.bound? .documentEnd
  else if c == '[' then l.openFlow? .flowListStart
  else if c == '\x7b' then l.openFlow? .flowMapStart
  else if c == ']' then l.closeFlow? .flowListEnd
  else if c == '\x7d' then l.closeFlow? .flowMapEnd
  else if c == ',' then l.comma?
  else if c == '-' && endsToken (l.place.rest.drop 1) then l.dash?
  else if c == '?' && l.standsAlone then l.key?
  else if c == ':' && l.standsAlone then l.value?
  else if c == '*' then l.keyPart? fun p => p.anchorName?.map fun (n, after) => (.aliasTo n, after)
  else if c == '&' then l.keyPart? fun p => p.anchorName?.map fun (n, after) => (.anchor n, after)
  else if c == '!' then l.keyPart? fun p => p.tag? l.inFlow
  else if c == '|' && !l.inFlow then l.block? .literal
  else if c == '>' && !l.inFlow then l.block? .folded
  else if c == '\'' || c == '"' then l.quoted? c
  else l.plain?

/-- Passes over what lies before the next token, and ends what that leaves. -/
def advance? (l : Layout) : Option Layout := do
  let (keyAllowed, place) := l.place.skip l.inFlow l.keyAllowed
  let l ← { l with place := place, keyAllowed := keyAllowed }.refresh?
  return l.closeHere

/-- The tokens of a text at its end. -/
def finish? (l : Layout) : Option (List Token) := l.closeAll.forget?.map (·.tokens.reverse)

/-- Reads on, at most `fuel` tokens. -/
def tokensFrom : Nat → Layout → Option (List Token)
  | 0, _ => none
  | fuel + 1, l => do
    let l ← l.advance?
    match l.place.rest with
    | [] => l.finish?
    | c :: _ => tokensFrom fuel (← l.token? c)

end Layout

/-- The tokens of a text. -/
def tokens? (text : String) : Option (List Token) :=
  let cs := text.toList
  if cs.all isAllowed then Layout.tokensFrom (cs.length + 1) (.start cs) else none

end PageSweep.Yaml
