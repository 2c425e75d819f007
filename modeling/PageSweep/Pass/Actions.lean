import PageSweep.Action.Reader
import PageSweep.Event

/-!
# The actions of a schema

A schema value is a tree: lists hold values, an object with a list of `actions` holds those, and every other
value is one action. The actions are taken in the order in which they stand. A value that lies in too many
lists is left out, and the log says so; what stands beside it is not touched by that.
-/

namespace PageSweep

/-- Actions, and what there is to report of those left out. -/
abbrev Collected := List Chain × List Event

def Collected.append (a b : Collected) : Collected := (a.1 ++ b.1, a.2 ++ b.2)

/-- The actions of a value that is no list. -/
def leafActions (v : Json) : List Chain :=
  match (v.get? "actions").bind Json.items? with
  | some actions => actions.map Chain.ofJson
  | none => [Chain.ofJson v]

/-- The report of a value that lies too deep. -/
def leftOut (maxDepth : Nat) : Collected := ([], [.groupSkipped (.chainTooDeep maxDepth)])

mutual
/-- The actions of a value that lies in `depth` lists. -/
def collect (maxDepth depth : Nat) : Json → Collected
  | .arr items =>
    if maxDepth < depth then leftOut maxDepth else collectItems maxDepth (depth + 1) items
  | v => if maxDepth < depth then leftOut maxDepth else (leafActions v, [])

/-- The actions of values one after the other. -/
def collectItems (maxDepth depth : Nat) : List Json → Collected
  | [] => ([], [])
  | v :: vs => (collect maxDepth depth v).append (collectItems maxDepth depth vs)
end

theorem collectItems_append (maxDepth depth : Nat) (vs ws : List Json) :
    collectItems maxDepth depth (vs ++ ws) =
      (collectItems maxDepth depth vs).append (collectItems maxDepth depth ws) := by
  induction vs with
  | nil => simp [collectItems, Collected.append]
  | cons v vs ih => simp [collectItems, Collected.append, ih]

end PageSweep
