import PageSweep.Yaml.Token

/-!
# Nodes

The tree of a document. A node that was given an anchor has a number, and an alias stands for the last node
of its number. Numbers count the names given so far, so a name that is given once more can share its number
with the next new name.
-/

namespace PageSweep.Yaml

inductive Node where
  | scalar (style : ScalarStyle) (tag : Option (List Char)) (text : String)
  | list (items : List Node)
  | map (entries : List (Node × Node))
  | aliasTo (number : Nat)
  | anchored (number : Nat) (node : Node)
deriving Inhabited, Repr

namespace Node

/-- What stands where nothing is written. -/
def empty (tag : Option (List Char)) : Node := .scalar .plain tag ""

mutual
/-- The size of a tree: a scalar counts once, a list or a map for its start and its end. -/
def size : Node → Nat
  | scalar .. => 1
  | list items => 2 + sizeItems items
  | map entries => 2 + sizeEntries entries
  | aliasTo _ => 1
  | anchored _ node => size node

def sizeItems : List Node → Nat
  | [] => 0
  | d :: ds => size d + sizeItems ds

def sizeEntries : List (Node × Node) → Nat
  | [] => 0
  | (k, v) :: es => size k + size v + sizeEntries es
end

mutual
/-- The nodes with a number in the order in which they begin. -/
def anchors : Node → List (Nat × Node)
  | scalar .. => []
  | list items => anchorsOfItems items
  | map entries => anchorsOfEntries entries
  | aliasTo _ => []
  | anchored number node => (number, node) :: anchors node

def anchorsOfItems : List Node → List (Nat × Node)
  | [] => []
  | d :: ds => anchors d ++ anchorsOfItems ds

def anchorsOfEntries : List (Node × Node) → List (Nat × Node)
  | [] => []
  | (k, v) :: es => anchors k ++ (anchors v ++ anchorsOfEntries es)
end

end Node

/-! ### Building a node from tokens -/

/-- What is left to build from, and the names met so far. -/
structure Supply where
  tokens : List Token
  /-- What handles of tags stand for. -/
  handles : List (List Char × List Char)
  /-- The numbers of anchors. -/
  names : List (String × Nat)

abbrev Build := StateT Supply Option

namespace Build

def peek : Build (Option Token) := return (← get).tokens.head?

def pass : Build Unit := modify fun s => { s with tokens := s.tokens.tail }

/-- The next token, passed over if it is the one that is meant. -/
def passIf (token : Token) : Build Bool := do
  if (← peek) == some token then
    pass
    return true
  else return false

/-- Whether one of some tokens comes next. -/
def isAtAny (tokens : List Token) : Build Bool := return (← peek).any tokens.contains

/-- Passes over the comma before an item that is not the first; one may also follow the last item. -/
def parted (isFirst : Bool) : Build Unit := do
  if isFirst then return
  else if ← passIf .comma then return
  else failure

/-- Gives a name the number of names given so far. -/
def number (name : String) : Build Nat := do
  let s ← get
  set { s with names := (name, s.names.length) :: s.names.filter (·.1 ≠ name) }
  return s.names.length

def numberOf (name : String) : Build Nat := do
  match (← get).names.find? (·.1 = name) with
  | some (_, n) => return n
  | none => failure

/-- A tag in full. -/
def fullTag (handle suffix : List Char) : Build (List Char) := do
  if handle.isEmpty then return suffix
  else match (← get).handles.find? (·.1 = handle) with
    | some (_, full) => return full ++ suffix
    | none => failure

def anchor? : Build (Option String) := do
  match ← peek with
  | some (.anchor name) =>
    pass
    return some name
  | _ => return none

def tag? : Build (Option (List Char)) := do
  match ← peek with
  | some (.tag handle suffix) =>
    pass
    return some (← fullTag handle suffix)
  | _ => return none

/-- What stands before a node: an anchor and a tag in one order or the other. -/
def properties : Build (Option Nat × Option (List Char)) := do
  let first? ← anchor?
  let tag? ← tag?
  let name? ← if first?.isSome then pure first? else anchor?
  return (← name?.mapM number, tag?)

mutual
/-- Builds a node, in block style only if `block` says so. Its dashes may stand in the column of the key
it belongs to if `belowKey` says so. -/
def node : Nat → Bool → Bool → Build Node
  | 0, _, _ => failure
  | fuel + 1, block, belowKey => do
    match ← peek with
    | some (.aliasTo name) =>
      pass
      return .aliasTo (← numberOf name)
    | _ =>
      let (number?, tag?) ← properties
      let node ← content fuel block belowKey (number?.isSome || tag?.isSome) tag?
      return match number? with
        | some n => .anchored n node
        | none => node

/-- Builds a node after what stands before it; with a property it may be empty. -/
def content : Nat → Bool → Bool → Bool → Option (List Char) → Build Node
  | 0, _, _, _, _ => failure
  | fuel + 1, block, belowKey, hasProperty, tag? => do
    match ← peek with
    | some (.scalar style text) =>
      pass
      -- A lone mark is no tag of a scalar that is written down.
      return .scalar style (tag?.filter (· ≠ ['!'])) text
    | some .flowListStart =>
      pass
      return .list (← flowItems fuel [])
    | some .flowMapStart =>
      pass
      return .map (← flowEntries fuel [])
    | some .dash =>
      if belowKey then return .list (← looseItems fuel [])
      else if hasProperty then return .empty tag?
      else failure
    | some .listStart =>
      if block then
        pass
        return .list (← items fuel [])
      else failure
    | some .mapStart =>
      if block then
        pass
        return .map (← entries fuel [])
      else failure
    | _ => if hasProperty then return .empty tag? else failure

/-- A node, or an empty one before some tokens. -/
def nodeBefore : Nat → Bool → Bool → List Token → Build Node
  | 0, _, _, _ => failure
  | fuel + 1, block, belowKey, ends => do
    if ← isAtAny ends then return .empty none else node fuel block belowKey

/-- The items of a list in block style; those read stand in reverse order. -/
def items : Nat → List Node → Build (List Node)
  | 0, _ => failure
  | fuel + 1, read => do
    if ← passIf .dash then
      let item ← nodeBefore fuel true false [.dash, .blockEnd]
      items fuel (item :: read)
    else if ← passIf .blockEnd then return read.reverse
    else failure

/-- The items of a list whose dashes stand in the column of its key. -/
def looseItems : Nat → List Node → Build (List Node)
  | 0, _ => failure
  | fuel + 1, read => do
    if ← passIf .dash then
      let item ← nodeBefore fuel true false [.dash, .key, .value, .blockEnd]
      looseItems fuel (item :: read)
    else return read.reverse

/-- The entries of a map in block style. -/
def entries : Nat → List (Node × Node) → Build (List (Node × Node))
  | 0, _ => failure
  | fuel + 1, read => do
    let ends : List Token := [.key, .value, .blockEnd]
    if ← passIf .key then
      let k ← nodeBefore fuel true true ends
      let v ← if ← passIf .value then nodeBefore fuel true true ends else pure (.empty none)
      entries fuel ((k, v) :: read)
    else if ← passIf .blockEnd then return read.reverse
    else failure

/-- The items of a list in flow style; a key makes a map of one entry. -/
def flowItems : Nat → List Node → Build (List Node)
  | 0, _ => failure
  | fuel + 1, read => do
    if ← passIf .flowListEnd then return read.reverse
    else
      parted read.isEmpty
      if ← passIf .flowListEnd then return read.reverse
      else if ← passIf .key then
        let entry ← flowPair fuel
        flowItems fuel (.map [entry] :: read)
      else
        let item ← node fuel false false
        flowItems fuel (item :: read)

/-- The entry of a map within a list in flow style. -/
def flowPair : Nat → Build (Node × Node)
  | 0 => failure
  | fuel + 1 => do
    let k ← if ← isAtAny [.value, .comma, .flowListEnd] then do
        -- What stands in place of the key is passed over.
        pass
        pure (.empty none)
      else node fuel false false
    let v ← if ← passIf .value then nodeBefore fuel false false [.comma, .flowListEnd]
      else pure (.empty none)
    return (k, v)

/-- The entries of a map in flow style; a node without a mark of a key has no value. -/
def flowEntries : Nat → List (Node × Node) → Build (List (Node × Node))
  | 0, _ => failure
  | fuel + 1, read => do
    if ← passIf .flowMapEnd then return read.reverse
    else
      parted read.isEmpty
      if ← passIf .flowMapEnd then return read.reverse
      else if ← passIf .key then
        let k ← nodeBefore fuel false false [.value, .comma, .flowMapEnd]
        let v ← if ← passIf .value then nodeBefore fuel false false [.comma, .flowMapEnd]
          else pure (.empty none)
        flowEntries fuel ((k, v) :: read)
      else
        let k ← node fuel false false
        flowEntries fuel ((k, .empty none) :: read)
end

end Build

end PageSweep.Yaml
