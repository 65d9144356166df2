import Multidrop.Text.Width

/-!
# Boxed Tables

Tables for people, drawn with box characters: solid lines around the table,
a double line under the header, and dashed lines between rows and columns.
A column is as wide as its widest cell, with a blank on either side.

A cell may hold several lines; its row is then as high as its highest cell,
and the other cells are filled up with blanks.

## Main definitions

* `Rule`: The characters of a horizontal line.
* `columnWidths`: How wide the columns have to be.
* `render`: A header and rows, drawn.
-/

namespace Multidrop

namespace Text

namespace Box

/-- The characters of a horizontal line. -/
structure Rule where
  left : String
  fill : Char
  cross : String
  right : String

/-- The line above a table. -/
def top : Rule := ⟨"┌", '─', "┬", "┐"⟩

/-- The line under the header. -/
def underHeader : Rule := ⟨"╞", '═', "╪", "╡"⟩

/-- The line between two rows. -/
def between : Rule := ⟨"├", '╌', "┼", "┤"⟩

/-- The line below a table. -/
def bottom : Rule := ⟨"└", '─', "┴", "┘"⟩

/-- A horizontal line over columns of the given widths. -/
def Rule.draw (r : Rule) (widths : List Nat) : String :=
  let spans := widths.map fun w => String.ofList (List.replicate (w + 2) r.fill)
  r.left ++ r.cross.intercalate spans ++ r.right

/-- The lines of a cell. -/
def cellLines (cell : String) : List String :=
  cell.splitOn "\n"

/-- The width of a cell. -/
def cellWidth (cell : String) : Nat :=
  (cellLines cell).foldl (fun w line => max w (width line)) 0

/-- How wide the columns have to be for some rows. -/
def columnWidths (rows : List (List String)) : List Nat :=
  rows.foldl (fun widths row =>
    let found := row.map cellWidth
    let count := max widths.length found.length
    (List.range count).map fun i => max (widths.getD i 0) (found.getD i 0)) []

/-- One line of a row, its parts filled up to the widths of their columns. -/
def drawLine (widths : List Nat) (parts : List String) : String :=
  let cells := widths.zipIdx.map fun (w, i) =>
    let part := parts.getD i ""
    " " ++ part ++ String.ofList (List.replicate (w - width part) ' ') ++ " "
  "│" ++ "┆".intercalate cells ++ "│"

/-- The lines of a row. -/
def drawRow (widths : List Nat) (row : List String) : List String :=
  let cells := row.map cellLines
  let height := cells.foldl (fun h lines => max h lines.length) 1
  (List.range height).map fun i => drawLine widths (cells.map fun lines => lines.getD i "")

/-- A table with a header, drawn. -/
def render (header : List String) (rows : List (List String)) : String :=
  let widths := columnWidths (header :: rows)
  let body := rows.map (drawRow widths)
  "\n".intercalate <|
    [top.draw widths] ++ drawRow widths header ++ [underHeader.draw widths] ++
      List.intercalate [between.draw widths] body ++ [bottom.draw widths]

end Box

end Text

end Multidrop
