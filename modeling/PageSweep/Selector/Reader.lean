import PageSweep.Error
import PageSweep.Selector.Basic
import PageSweep.Selector.Split

/-!
# Reading selectors

Names are letters, digits, `_` and `-`. A step starts with `*` or a tag, both of which may be missing, and
goes on with ids, classes and attribute conditions; two ids are one too many. Everything else,
pseudo-classes included, is unsupported, and one bad chain makes the whole selector so.
-/

namespace PageSweep.Selector

open Text

def isNameChar (c : Char) : Bool := c.isAlphanum || c == '_' || c == '-'

/-- Reads a name, which has at least one character. -/
def readName? (cs : List Char) : Option (String × List Char) :=
  let name := cs.takeWhile isNameChar
  if name.isEmpty then none else some (String.ofList name, cs.dropWhile isNameChar)

/-- The key of a condition: a name, in lower case. -/
def keyOf? (cs : List Char) : Option String :=
  let key := lowerList (trimList cs)
  if !key.isEmpty && key.all isNameChar then some (String.ofList key) else none

/-- The value of a condition: in quotes, or else of name characters only. -/
def valueOf? (cs : List Char) : Option String :=
  let raw := trimList cs
  let isQuoted := match raw with
    | q :: _ :: _ => (q == '"' || q == '\'') && raw.getLast? == some q
    | _ => false
  if isQuoted then some (String.ofList (raw.drop 1).dropLast)
  else if raw.all isNameChar then some (String.ofList raw)
  else none

def isTestMark (c : Char) : Bool := c == '=' || c == '^' || c == '$' || c == '*' || c == '~'

/-- The test that its mark and value name. -/
def testOf? (cs : List Char) : Option AttrTest :=
  match cs with
  | '=' :: r => (valueOf? r).map .equals
  | '^' :: '=' :: r => (valueOf? r).map .startsWith
  | '$' :: '=' :: r => (valueOf? r).map .endsWith
  | '*' :: '=' :: r => (valueOf? r).map .contains
  | '~' :: '=' :: r => (valueOf? r).map .includes
  | _ => none

/-- The condition between two brackets. -/
def conditionOf? (inner : List Char) : Option AttrCondition :=
  let key := inner.takeWhile (!isTestMark ·)
  let test := inner.dropWhile (!isTestMark ·)
  if test.isEmpty then (keyOf? inner).map fun k => ⟨k, .present⟩
  else do
    let k ← keyOf? key
    let t ← testOf? test
    return ⟨k, t⟩

/-- Reads a condition after its opening bracket; the first closing bracket ends it. -/
def readCondition? (cs : List Char) : Option (AttrCondition × List Char) :=
  match cutAt ']' cs with
  | none => none
  | some (inner, rest) => (conditionOf? (trimList inner)).map fun c => (c, rest)

/-- Reads ids, classes and conditions up to the end, at most `fuel` of them. -/
def readTests? : Nat → Step → List Char → Option Step
  | _, step, [] => some step
  | 0, _, _ :: _ => none
  | fuel + 1, step, c :: cs =>
    match c with
    | '#' => do
      let (id, r) ← readName? cs
      if step.id.isSome then none else readTests? fuel { step with id := some id } r
    | '.' => do
      let (name, r) ← readName? cs
      readTests? fuel { step with classes := step.classes ++ [name] } r
    | '[' => do
      let (condition, r) ← readCondition? cs
      readTests? fuel { step with conditions := step.conditions ++ [condition] } r
    | _ => none

/-- Reads a step that fills a whole token. -/
def stepOf? (token : List Char) : Option Step :=
  match token with
  | [] => none
  | '*' :: r => readTests? r.length .any r
  | c :: r =>
    if c = '#' ∨ c = '.' ∨ c = '[' then readTests? token.length .any token
    else do
      let (tag, rest) ← readName? (c :: r)
      readTests? rest.length { Step.any with tag := some tag } rest

/-- The parts of a chain from its tokens, after the first one or at the start, after a `>` or not. -/
def partsOf? (first child : Bool) : List (List Char) → Option Chain
  | [] => if first || child then none else some []
  | token :: tokens =>
    if token = ['>'] then (if first || child then none else partsOf? false true tokens)
    else do
      let step ← stepOf? token
      let parts ← partsOf? false false tokens
      return ⟨step, if child then .child else .descendant⟩ :: parts

/-- The tokens of a chain: the pieces between blanks. -/
def tokensOf (ps : List (List Char)) : List (List Char) := (ps.map trimList).filter (!·.isEmpty)

/-- The chain that one alternative of a selector writes. -/
def chainOf (selector : String) (group : List Char) : Except Error Chain :=
  let group := trimList group
  if group.isEmpty then .error (.selector selector)
  else
    let padded := padChild .outside group
    match pieces isSpace .outside padded with
    | none => .error (.selector (String.ofList padded))
    | some ps =>
      match partsOf? true false (tokensOf ps) with
      | none => .error (.selector selector)
      | some chain => .ok chain

/-- The chains of all alternatives; the first bad one decides. -/
def chainsOf (selector : String) : List (List Char) → Except Error Selector
  | [] => .ok []
  | group :: groups =>
    match chainOf selector group with
    | .error e => .error e
    | .ok chain => (chainsOf selector groups).map (chain :: ·)

/-- Reads a selector. -/
def read (selector : String) : Except Error Selector :=
  match pieces (· == ',') .outside selector.toList with
  | none => .error (.selector selector)
  | some groups => chainsOf selector groups

end PageSweep.Selector
