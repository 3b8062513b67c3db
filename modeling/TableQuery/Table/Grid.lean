import TableQuery.Table.Basic

/-!
Tables as text: a header line, a line of dashes, and a line for every row, with bars between the
cells. A column is as wide as the longest of its cells in bytes, and cells are filled up with spaces
by characters, so that cells beyond ASCII leave their column wider than it need be. The widths have
a limit, and a table that needs more has no grid.
-/

namespace TableQuery.Table

/-- The cells of a row. -/
def cells (row : Row) : List String := row.values.map (·.shown)

/-- The width of the column at an index: its longest text in bytes. -/
def columnWidth (rows : List (List String)) (index : Nat) (field : String) : Nat :=
  ((rows.filterMap (·[index]?)).map (·.utf8ByteSize)).foldl max field.utf8ByteSize

def widths (table : Table) : List Nat :=
  table.fields.mapIdx (columnWidth (table.rows.map cells))

/-- A text filled up with spaces to a number of characters. -/
def padded (text : String) (width : Nat) : String :=
  text ++ String.ofList (List.replicate (width - text.length) ' ')

/-- Cells in a line, with bars around them. -/
def gridLine (widths : List Nat) (cells : List String) : String :=
  let boxed := List.zipWith (fun cell width => " " ++ padded cell width ++ " |") cells widths
  "|" ++ String.join boxed

/-- The line between header and rows. -/
def dashLine (widths : List Nat) : String :=
  "|" ++ String.join (widths.map fun width => String.ofList (List.replicate (width + 2) '-') ++ "|")

/-- The lines of the grid. -/
def gridLines (table : Table) : List String :=
  gridLine table.widths table.fields :: dashLine table.widths ::
    table.rows.map fun row => gridLine table.widths (cells row)

/-- The width up to which cells can be filled up. -/
def greatestWidth : Nat := 65535

/-- The table as text, unless a column is too wide. Without fields there is nothing to lay out. -/
def grid? (table : Table) : Option String :=
  if table.fields.isEmpty then some "Empty result\n"
  else if table.widths.all (· ≤ greatestWidth) then
    some (String.join (table.gridLines.map (· ++ "\n")))
  else none

end TableQuery.Table
