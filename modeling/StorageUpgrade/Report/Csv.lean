import StorageUpgrade.Report.Column
import StorageUpgrade.Text.Lines

/-!
# Comma-separated values

One record for the headings and one for every row. A field that holds a separator, a line end or a
quote stands between quotes, and the quotes inside it are doubled.
-/
namespace StorageUpgrade.Report

namespace Csv

def needsQuotes (s : List Char) : Bool :=
  s.any fun c => c = ',' || c = '\n' || c = '\r' || c = '"'

def doubleQuotes (s : List Char) : List Char :=
  s.flatMap fun c => if c = '"' then ['"', '"'] else [c]

def field (s : String) : String :=
  if needsQuotes s.toList then String.ofList ('"' :: doubleQuotes s.toList ++ ['"']) else s

def record (fields : List String) : String := Text.join "," (fields.map field)

end Csv

/-- Texts of the cells of a row. A member that is null or missing leaves its cell empty. -/
def csvCells (columns : List Column) (row : Json) : List String :=
  columns.map fun c => cellText "" (c.value row)

/-- The headings and the rows as records. -/
def csvText (columns : List Column) (rows : List Json) : String :=
  Text.join "\n" (Csv.record (columns.map Column.name) ::
    rows.map fun row => Csv.record (csvCells columns row))

end StorageUpgrade.Report
