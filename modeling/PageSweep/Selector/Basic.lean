import PageSweep.Page.Element

/-!
# Selectors

A selector is a choice of chains. A chain is a row of steps, each one a test of an element, and says of
neighbours whether the left one is the parent of the right one or any element above it.
-/

namespace PageSweep

namespace Selector

/-- What is asked of an attribute. -/
inductive AttrTest where
  | present
  | equals (value : String)
  | startsWith (value : String)
  | endsWith (value : String)
  | contains (value : String)
  /-- The value is one of the words. -/
  | includes (value : String)
deriving DecidableEq, Repr

structure AttrCondition where
  key : String
  test : AttrTest
deriving DecidableEq, Repr

/-- A test of one element: whatever is given has to fit. -/
structure Step where
  tag : Option String
  id : Option String
  classes : List String
  conditions : List AttrCondition
deriving DecidableEq, Repr

def Step.any : Step := ⟨none, none, [], []⟩

/-- How a step is tied to the one on its left. -/
inductive Combinator where
  | descendant
  | child
deriving DecidableEq, Repr

structure Part where
  step : Step
  /-- Nothing stands on the left of the first part, so there it has no meaning. -/
  combinator : Combinator
deriving DecidableEq, Repr

abbrev Chain := List Part

end Selector

/-- A choice of chains. -/
abbrev Selector := List Selector.Chain

end PageSweep
