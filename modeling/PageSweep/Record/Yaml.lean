import PageSweep.Error
import PageSweep.Record.Shape
import PageSweep.Yaml.Document

/-!
# Reading a record from YAML

A scalar has no type of its own: it means what the field that holds it makes of it. A record is a map of its
fields, never a list of them, and nothing at all is an empty list or map.

What stands under a name that the shape does not have is not looked at. In the rest an alias is read as the
node it stands for. That may be done a hundred times for each node and end of the document, and lists and
maps may be nested 128 deep; so an alias within its own node makes the document no record.

Why a text is no record is not told.
-/

namespace PageSweep.Shape

open Yaml

/-- Reading with so many aliases left to follow. -/
abbrev Reading := StateT Nat Option

/-- The levels of lists and maps that a record may have. -/
def depthLimit : Nat := 128

/-- How often an alias may be followed for each node and each end of a document. -/
def aliasLimit : Nat := 100

/-- The node itself or, for an alias, the node it stands for: the last one with its number. -/
def follow (anchors : List (Nat × Yaml.Node)) : Yaml.Node → Reading Yaml.Node
  | .aliasTo number => do
    match ← get, (anchors.reverse.find? (·.1 = number)).map (·.2) with
    | left + 1, some node =>
      set left
      return node
    | _, _ => failure
  | .anchored _ node => return node
  | node => return node

/-- The full name of a tag of the core kinds. -/
def coreTag (kind : String) : List Char := "tag:yaml.org,2002:".toList ++ kind.toList

/-- Whether a scalar can be other than text: if it is plain, or literal with the tag that says so. -/
def isTyped (kind : String) : ScalarStyle → Option (List Char) → Bool
  | .plain, _ => true
  | .literal, tag? => tag? == some (coreTag kind)
  | _, _ => false

/-- Whether a scalar is the absent value; nothing is read if it says to be absent and is not. -/
def isAbsent? (style : ScalarStyle) (tag? : Option (List Char)) (text : String) : Option Bool :=
  match style, tag? with
  | .plain, none => some (text.isEmpty || nullWords.contains text)
  | .plain, some tag =>
    if tag ≠ coreTag "null" then some false
    else if nullWords.contains text then some true
    else none
  | _, _ => some false

/-- What a scalar means where a shape is expected. -/
def ofScalar? (style : ScalarStyle) (tag? : Option (List Char)) (s : String) : Shape → Option Datum
  | text => some (.str s)
  | optionalText => (isAbsent? style tag? s).map fun absent => if absent then .null else .str s
  | flag => if isTyped "bool" style tag? then (flagOf? s).map .bool else none
  | count max _ =>
    if isTyped "int" style tag? then ((countOf? s).filter (· ≤ max)).map fun n => .int n else none
  | list _ => if style = .plain && s.isEmpty then some (.list []) else none
  | table _ => if style = .plain && s.isEmpty then some (.map []) else none
  | record _ fields =>
    if style = .plain && s.isEmpty && (missing? fields []).isNone then some (.map []) else none
  | pair => none
  | again => none

/-- The text of a node that can be nothing else. -/
def readText? (anchors : List (Nat × Yaml.Node)) (node : Yaml.Node) : Reading String := do
  match ← follow anchors node with
  | .scalar _ _ s => return s
  | _ => failure

/-- What a shape keeps of a node, `outer` being the record around it; `room` more levels may be opened. -/
def readNode (anchors : List (Nat × Yaml.Node)) (room : Nat) (outer shape : Shape) (node : Yaml.Node) :
    Reading Datum := do
  let node ← follow anchors node
  let shape := match shape with
    | again => outer
    | s => s
  match room, node, shape with
  | _, .scalar style tag? s, shape => (ofScalar? style tag? s shape : Option Datum)
  | room + 1, .list items, list item => do
    return .list (← items.mapM (readNode anchors room outer item))
  | _ + 1, .list [a, b], pair => do
    let a ← readText? anchors a
    let b ← readText? anchors b
    return .list [.str a, .str b]
  | room + 1, .map entries, table item => do
    let kept ← entries.mapM fun (k, v) => do
      let name ← readText? anchors k
      return (name, ← readNode anchors room outer item v)
    return .map kept
  | room + 1, .map entries, record title fields => do
    let kept ← entries.foldlM (fun kept (k, v) => do
      match field? fields (← readText? anchors k) with
      | none => return kept
      | some f =>
        if (Entries.get? (fieldName f) kept).isSome then failure
        else
          let value ← readNode anchors room (record title fields) f.2.2 v
          return (fieldName f, value) :: kept) []
    if (missing? fields (kept.map (·.1))).isSome then failure
    else return .map kept.reverse
  | _, _, _ => failure

/-- What a shape keeps of a YAML text. -/
def readYaml (shape : Shape) (text : String) : Except Error Datum :=
  match Yaml.read text with
  | none => .error .yaml
  | some root =>
    match (readNode root.anchors depthLimit shape shape root).run' (aliasLimit * root.size) with
    | some kept => .ok kept
    | none => .error .yaml

end PageSweep.Shape
