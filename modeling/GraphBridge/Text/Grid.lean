import GraphBridge.Text.Width

/-!
# Grids

A grid is a row of headings over rows of cells, drawn with box characters. A column is as wide as
its widest line, cells are set flush left with a space on both sides, and a cell of several lines
makes its row that much higher.
-/

namespace GraphBridge.Text

/-- Headings over rows of cells. -/
structure Grid where
  header : List String
  rows : List (List String)
  deriving Repr

namespace Grid

/-- The lines of a cell. -/
def cellLines (cell : String) : List String :=
  cell.splitOn "\n"

/-- The columns that a cell takes. -/
def cellWidth (cell : String) : Nat :=
  ((cellLines cell).map width).foldl max 0

/-- The widths of the columns. -/
def columnWidths (grid : Grid) : List Nat :=
  grid.rows.foldl (fun widths row => widths.zipWith max (row.map cellWidth))
    (grid.header.map cellWidth)

/-- A character written a number of times. -/
def repeated (c : Char) (count : Nat) : String :=
  String.ofList (List.replicate count c)

/-- A line with a space on both sides, filled up to the width of its column. -/
def padded (columnWidth : Nat) (line : String) : String :=
  " " ++ line ++ repeated ' ' (columnWidth - width line) ++ " "

/-- The lines that draw a row: each cell gives its lines, then empty ones. -/
def rowLines (widths : List Nat) (row : List String) : List String :=
  let cells := row.map cellLines
  let height := (cells.map List.length).foldl max 0
  (List.range height).map fun k =>
    let parts := widths.zipWith (fun w lines => padded w (lines[k]?.getD "")) cells
    "│" ++ "┆".intercalate parts ++ "│"

/-- A rule across the grid, from its left end to its right end. -/
def rule (widths : List Nat) (left : String) (dash : Char) (crossing right : String) : String :=
  left ++ crossing.intercalate (widths.map fun w => repeated dash (w + 2)) ++ right

/-- The lines that draw a grid. -/
def lines (grid : Grid) : List String :=
  let widths := grid.columnWidths
  [rule widths "┌" '─' "┬" "┐"]
    ++ rowLines widths grid.header
    ++ [rule widths "╞" '═' "╪" "╡"]
    ++ grid.rows.flatMap (rowLines widths)
    ++ [rule widths "└" '─' "┴" "┘"]

/-- The grid as text, each line ended. -/
def render (grid : Grid) : String :=
  String.join (grid.lines.map (· ++ "\n"))

end Grid

end GraphBridge.Text
