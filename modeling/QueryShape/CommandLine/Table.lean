import QueryShape.Text.Width

/-!
# Tables

Rows of cells as a table with a frame of hyphens, bars and plus signs. A cell may have several lines.
-/

set_option autoImplicit false

namespace QueryShape.CommandLine

/-- The lines of a cell. -/
def cellLines (cell : String) : List String := cell.splitOn "\n"

def cellWidth (cell : String) : Nat :=
  ((cellLines cell).map fun line => Text.lineWidth line.toList).foldl max 0

/-- The widths of the columns. -/
def columnWidths : List (List String) → List Nat
  | [] => []
  | [row] => row.map cellWidth
  | row :: rows => List.zipWith max (row.map cellWidth) (columnWidths rows)

/-- A line of the frame. -/
def frameLine (widths : List Nat) : String :=
  "+" ++ String.join (widths.map fun w => String.ofList (List.replicate (w + 2) '-') ++ "+")

/-- A line of a cell with spaces up to the width of its column. -/
def padded (width : Nat) (line : String) : String :=
  line ++ String.ofList (List.replicate (width - Text.lineWidth line.toList) ' ')

/-- The lines of a row: as many as its highest cell has. -/
def rowLines (widths : List Nat) (row : List String) : List String :=
  let cells := row.map cellLines
  let height := (cells.map List.length).foldl max 0
  (List.range height).map fun i =>
    "|" ++ String.join (List.zipWith (fun w lines =>
      " " ++ padded w ((lines[i]?).getD "") ++ " |") widths cells)

/-- The lines of a table, with a frame line above, below and between the rows. -/
def tableLines (rows : List (List String)) : List String :=
  let widths := columnWidths rows
  frameLine widths :: rows.flatMap fun row => rowLines widths row ++ [frameLine widths]

def table (rows : List (List String)) : String := "\n".intercalate (tableLines rows)

end QueryShape.CommandLine
