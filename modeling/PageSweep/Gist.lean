import PageSweep.Event
import PageSweep.Text.Pieces

/-!
# Gist addresses

The address of a gist page is replaced by the one its raw text is served from. The page address holds the
id of the gist after the owner, or alone at its end. Other addresses stay as they are, and so do those that
mention `raw` already.
-/

namespace PageSweep.Gist

open Text

def host : String := "gist.github.com"

def rawBase : String := "https://gist.githubusercontent.com/raw"

def isHexDigit (c : Char) : Bool :=
  c.isDigit || ('a' ≤ c && c ≤ 'f') || ('A' ≤ c && c ≤ 'F')

/-- Lower case for comparing: a long s folds to an s like the capital does. -/
def fold (c : Char) : Char := if c = '\u017f' then 's' else c.toLower

/-- The rest after a start, whatever its case. -/
def afterFolded? : List Char → List Char → Option (List Char)
  | [], cs => some cs
  | _ :: _, [] => none
  | p :: ps, c :: cs => if p = fold c then afterFolded? ps cs else none

/-- The first value that a function finds at a place of a text. -/
def firstAt? {α : Type} (f : List Char → Option α) : List Char → Option α
  | [] => f []
  | c :: cs => (f (c :: cs)).or (firstAt? f cs)

/-- The run of hexadecimal digits in front, if there is one. -/
def idInFront? (cs : List Char) : Option (List Char) :=
  let id := cs.takeWhile isHexDigit
  if id.isEmpty then none else some id

/-- The id in `host/owner/id`, if the text starts like that. -/
def ownedId? (cs : List Char) : Option (List Char) :=
  match afterFolded? host.toList cs with
  | some ('/' :: r) =>
    match r.dropWhile (· ≠ '/') with
    -- An owner has at least one character.
    | '/' :: t => if r.head? = some '/' then none else idInFront? t
    | _ => none
  | _ => none

/-- The id in `host/id`, if that is all of the text, a slash at its end apart. -/
def bareId? (cs : List Char) : Option (List Char) :=
  match afterFolded? host.toList cs with
  | some ('/' :: r) =>
    match r.dropWhile isHexDigit with
    | [] => idInFront? r
    | ['/'] => idInFront? r
    | _ => none
  | _ => none

/-- The id of the gist that an address names. -/
def id? (url : List Char) : Option (List Char) :=
  (firstAt? ownedId? url).or (firstAt? bareId? url)

/-- The address to fetch for an address, with what there is to report. -/
def rawAddress (url : String) : String × List Event :=
  if !holds host url || holds "raw" url then (url, [])
  else match id? url.toList with
    | some id => (rawBase ++ "/" ++ String.ofList id ++ "/", [])
    | none => (url, [.gistWithoutId url])

end PageSweep.Gist
