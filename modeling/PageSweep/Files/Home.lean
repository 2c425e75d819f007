import PageSweep.Files.Tree

/-!
# Where settings are kept

Settings and state are two files in a directory of their own, which marks the root they are for. The root
of a place is the nearest one above it that is so marked.
-/

namespace PageSweep

/-- The directory that marks a root. -/
def markDirectory : Path := .ofText ".uncookie"

def settingsPath (root : Path) : Path := root.append (.ofText ".uncookie/config.yaml")

def statePath (root : Path) : Path := root.append (.ofText ".uncookie/state.yaml")

/-- The nearest root at or above a place. -/
def FileTree.findRoot? (t : FileTree) (start : Path) : Option Path :=
  start.ancestors.find? fun p => t.isDirectory (p.append markDirectory)

end PageSweep
