import PageSweep.Text.Pieces

/-!
# Text tables

Rows of cells under headings, in columns as wide as their widest cell. Lines have no blanks at their ends;
the line under the headings is made of dashes.
-/

namespace PageSweep.TextTable

open Text

/-- The greatest width in each column. -/
def widths (headings : List String) (rows : List (List String)) : List Nat :=
  rows.foldl (fun ws row => List.zipWith (fun w (cell : String) => max w cell.length) ws row)
    (headings.map (·.length))

def padTo (width : Nat) (cell : String) : String :=
  cell ++ String.ofList (List.replicate (width - cell.length) ' ')

def line (ws : List Nat) (row : List String) : String :=
  String.ofList (trimBack (join "  " (List.zipWith padTo ws row)).toList)

/-- The lines of a table whose rows have a cell for each heading. -/
def lines (headings : List String) (rows : List (List String)) : List String :=
  let ws := widths headings rows
  line ws headings :: join "  " (ws.map fun w => String.ofList (List.replicate w '-')) ::
    rows.map (line ws)

end PageSweep.TextTable
