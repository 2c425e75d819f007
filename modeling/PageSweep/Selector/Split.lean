import PageSweep.Text.Pieces

/-!
# Cutting outside brackets

A selector is cut at commas and at blanks, but not inside the brackets of an attribute condition, nor inside
quotes there. Both cuts, and the padding of `>`, walk the text with the same state.
-/

namespace PageSweep.Selector

open Text

/-- Where a place of a text lies: how many brackets deep, and inside which quote. -/
structure Nesting where
  depth : Nat
  quote : Option Char
deriving DecidableEq, Repr

namespace Nesting

def outside : Nesting := ⟨0, none⟩

def isOutside (n : Nesting) : Bool := n.depth == 0 && n.quote.isNone

/-- Where the place after a character lies. A quote counts inside brackets only. -/
def next (n : Nesting) (c : Char) : Nesting :=
  match n.quote with
  | some q => if c = q then { n with quote := none } else n
  | none =>
    if (c = '"' ∨ c = '\'') ∧ 0 < n.depth then { n with quote := some c }
    else if c = '[' then { n with depth := n.depth + 1 }
    else if c = ']' then { n with depth := n.depth - 1 }
    else n

end Nesting

/-- Puts a character in front of the first piece. -/
def inFront (c : Char) : List (List Char) → List (List Char)
  | [] => [[c]]
  | p :: ps => (c :: p) :: ps

/-- Cuts at the marks that lie outside brackets; none if a bracket closes or stays open without its other. -/
def pieces (isMark : Char → Bool) (n : Nesting) : List Char → Option (List (List Char))
  | [] => if n.isOutside then some [[]] else none
  | c :: cs =>
    if n.isOutside && c == ']' then none
    else if n.isOutside && isMark c then (pieces isMark n cs).map ([] :: ·)
    else (pieces isMark (n.next c) cs).map (inFront c)

/-- Sets a `>` that lies outside brackets between blanks. -/
def padChild (n : Nesting) : List Char → List Char
  | [] => []
  | c :: cs =>
    if n.isOutside && c == '>' then ' ' :: '>' :: ' ' :: padChild n cs
    else c :: padChild (n.next c) cs

end PageSweep.Selector
