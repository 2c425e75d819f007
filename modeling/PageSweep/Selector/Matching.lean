import PageSweep.Selector.Basic

/-!
# Matching

Whether an element, with the elements above it, fits a selector. A chain is matched from its last step
upwards: the last step is for the element itself, and the one before is for its parent, or for any element
above it from which the rest of the chain matches in turn.
-/

namespace PageSweep.Selector

open Text

def AttrTest.holds (t : AttrTest) (actual : String) : Bool :=
  match t with
  | present => true
  | equals v => actual == v
  | startsWith v => v ≠ "" && Text.startsWith v actual
  | endsWith v => v ≠ "" && Text.endsWith v actual
  | contains v => v ≠ "" && Text.holds v actual
  | includes v => (words actual).contains v

def AttrCondition.isMatch (c : AttrCondition) (e : Element) : Bool :=
  match e.attrs.get? c.key with
  | none => false
  | some actual => c.test.holds actual

def Step.isMatch (s : Step) (e : Element) : Bool :=
  s.tag.all (fun tag => lower e.tag == lower tag) &&
    s.id.all (fun id => e.id? == some id) &&
    s.classes.all e.hasClass &&
    s.conditions.all (·.isMatch e)

/-- The elements above, each with those above it. -/
def lines : List Element → List (Element × List Element)
  | [] => []
  | a :: as => (a, as) :: lines as

/-- Whether an element matches a chain, given from its end. -/
def matchesBack : Chain → Element → List Element → Bool
  | [], _, _ => false
  | [p], e, _ => p.step.isMatch e
  | p :: q :: rest, e, above =>
    p.step.isMatch e &&
      match p.combinator with
      -- Only the nearest element above is the parent.
      | .child => ((lines above).take 1).any fun a => matchesBack (q :: rest) a.1 a.2
      | .descendant => (lines above).any fun a => matchesBack (q :: rest) a.1 a.2

def Chain.isMatch (c : Chain) (e : Element) (above : List Element) : Bool :=
  matchesBack c.reverse e above

/-- Whether an element matches one of the chains. -/
def isMatch (s : Selector) (e : Element) (above : List Element) : Bool :=
  s.any fun c => Chain.isMatch c e above

end PageSweep.Selector
