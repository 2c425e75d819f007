import PageSweep.Yaml.Layout
import PageSweep.Yaml.Node

/-!
# Documents

A text is one document: directives, which need a mark after them, the root node, and end marks. What stands
after an end mark would be a second document, so nothing may.
-/

namespace PageSweep.Yaml

/-- What handles stand for unless directives say otherwise. -/
def usualHandles : List (List Char × List Char) :=
  [(['!'], ['!']), (['!', '!'], "tag:yaml.org,2002:".toList)]

/-- Reads directives: what their handles stand for, and the tokens after them. A version may be asked for
once, and a handle be given a meaning once. -/
def directives? (version : Bool) (handles : List (List Char × List Char)) :
    List Token → Option (List (List Char × List Char) × List Token)
  | .version major minor :: ts =>
    if version || major ≠ 1 || (minor ≠ 1 && minor ≠ 2) then none else directives? true handles ts
  | .tagHandle handle full :: ts =>
    if handles.any (·.1 = handle) then none else directives? version ((handle, full) :: handles) ts
  | ts => some (handles ++ usualHandles, ts)

/-- Tokens that end a document. -/
def endsDocument : Token → Bool
  | .version .. => true
  | .tagHandle .. => true
  | .documentStart => true
  | .documentEnd => true
  | _ => false

/-- The root node that tokens make, if they are one document. A text without tokens has an empty one. -/
def Node.ofTokens? (tokens : List Token) : Option Node := do
  let (handles, ts) ← directives? false [] tokens
  let (marked, ts) ←
    match ts with
    | .documentStart :: ts => some (true, ts)
    | ts => if tokens.length = ts.length then some (false, ts) else none
  let isEmpty := if marked then ts.head?.all endsDocument else ts.isEmpty
  let (root, rest) ←
    if isEmpty then some (.empty none, ts)
    else (Build.node (4 * ts.length + 4) true false ⟨ts, handles, []⟩).map fun (n, s) => (n, s.tokens)
  if rest.all (· == .documentEnd) then some root else none

/-- The root node of a text. -/
def read (text : String) : Option Node := (tokens? text).bind Node.ofTokens?

end PageSweep.Yaml
