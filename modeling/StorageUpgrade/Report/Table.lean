import StorageUpgrade.Report.Column
import StorageUpgrade.Report.Settings
import StorageUpgrade.Text.Lines
import StorageUpgrade.Text.Width

/-!
# Tables

Cells are laid out in columns as wide as their widest line, with a space on either side. A framed
table has round corners and one rule, which stands below its first row. The last row of a table is
followed by a closing line, unless it is the first one and has the rule below it already. A compact
table has no lines at all.
-/
namespace StorageUpgrade.Report

def cellLines (cell : String) : List (List Char) := Text.splitOn '\n' cell.toList

def cellWidth (cell : String) : Nat := ((cellLines cell).map Text.width).foldl Nat.max 0

def spaces (n : Nat) : List Char := List.replicate n ' '

/-- One line of a cell in a column of some width. The lines of a cell keep their left edge in
common. -/
def cellLine (side : Side) (width : Nat) (cell : String) (index : Nat) : List Char :=
  let line := (cellLines cell)[index]?.getD []
  let block := cellWidth cell
  let gap := width - block
  let body := line ++ spaces (block - Text.width line)
  match side with
  | .left => body ++ spaces gap
  | .right => spaces gap ++ body

/-- Cells in rows, with the side of every column. -/
structure Table where
  sides : List Side
  rows : List (List String)

namespace Table

def columnCount (t : Table) : Nat := (t.rows.map List.length).foldl Nat.max 0

/-- Cell of a row, empty where the row is too short. -/
def cell (row : List String) (column : Nat) : String := row[column]?.getD ""

def columnWidth (t : Table) (column : Nat) : Nat :=
  (t.rows.map fun row => cellWidth (cell row column)).foldl Nat.max 0

def rowHeight (row : List String) : Nat :=
  (row.map fun c => (cellLines c).length).foldl Nat.max 1

/-- Pieces between two edges with a separator in between. -/
def edged (left separator right : String) (pieces : List String) : String :=
  left ++ Text.join separator pieces ++ right

def widths (t : Table) : List Nat := (List.range t.columnCount).map t.columnWidth

def rowLine (t : Table) (compact : Bool) (widths : List Nat) (row : List String) (index : Nat) :
    String :=
  let pieces := widths.mapIdx fun j width =>
    let side := t.sides[j]?.getD .left
    String.ofList (' ' :: cellLine side width (cell row j) index ++ [' '])
  if compact then edged "" " " "" pieces else edged "│" "│" "│" pieces

def rowLines (t : Table) (compact : Bool) (widths : List Nat) (row : List String) : List String :=
  (List.range (rowHeight row)).map (t.rowLine compact widths row)

def rule (widths : List Nat) (left separator right : String) : String :=
  edged left separator right (widths.map fun n => String.ofList (List.replicate (n + 2) '─'))

def textLines (t : Table) (compact : Bool) : List String :=
  let widths := t.widths
  if compact then t.rows.flatMap (t.rowLines true widths)
  else
    match t.rows with
    | [] => []
    | first :: rest =>
      let head :=
        rule widths "╭" "┬" "╮" :: t.rowLines false widths first ++ [rule widths "├" "┼" "┤"]
      if rest.isEmpty then head
      else head ++ rest.flatMap (t.rowLines false widths) ++ [rule widths "╰" "┴" "╯"]

/-- Text of a table. A table without columns has none. -/
def text (t : Table) (s : Settings) : String :=
  if t.columnCount = 0 then "" else Text.join "\n" (t.textLines s.compact)

end Table

/-- Table of headings and rows, every column flush left. -/
def rowsTable (headings : List String) (rows : List (List String)) (s : Settings) : String :=
  Table.text ⟨[], headings :: rows⟩ s

/-- Table of names and values, the names flush right. -/
def keyValueTable (pairs : List (String × String)) (s : Settings) : String :=
  Table.text ⟨[.right], pairs.map fun p => [p.1, p.2]⟩ s

/-- Text of the cell that a column shows, cut to the width of the column if the settings say so. -/
def tableCell (s : Settings) (row : Json) (c : Column) : String :=
  let text := cellText "-" (c.value row)
  match s.truncate, c.maxWidth with
  | true, some size => truncate size text
  | _, _ => text

def columnsTable (columns : List Column) (rows : List Json) (s : Settings) : String :=
  if rows.isEmpty then "(no results)"
  else
    Table.text ⟨columns.map Column.side,
      columns.map Column.name :: rows.map fun row => columns.map (tableCell s row)⟩ s

end StorageUpgrade.Report
