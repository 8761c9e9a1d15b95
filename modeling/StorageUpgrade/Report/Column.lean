import StorageUpgrade.Json.Value

/-!
# Columns

A column of a table shows one member of every row.
-/
namespace StorageUpgrade.Report

inductive Side where
  | left
  | right
  deriving DecidableEq

/-- A heading, the key of the member shown below it, and how it is shown. -/
structure Column where
  name : String
  key : String
  maxWidth : Option Nat := none
  side : Side := .left
  deriving DecidableEq

/-- Text of a member in a cell. Null takes the text given for it, and composite values only show
their size. -/
def cellText (null : String) : Json → String
  | .null => null
  | .bool b => if b then "true" else "false"
  | .number n => n.text
  | .string s => s
  | .array vs => "[" ++ toString vs.length ++ " items]"
  | .object ms => "\x7b" ++ toString ms.length ++ " fields\x7d"

/-- The member of a row that a column shows, null when there is none. -/
def Column.value (c : Column) (row : Json) : Json := (row.get? c.key).getD .null

/-- A text cut to a number of characters. The last three of them become dots if there are more than
three. -/
def truncate (size : Nat) (s : String) : String :=
  if s.length ≤ size then s
  else if size ≤ 3 then String.ofList (s.toList.take size)
  else String.ofList (s.toList.take (size - 3)) ++ "..."

end StorageUpgrade.Report
