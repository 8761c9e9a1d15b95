import StorageUpgrade.Comparison.Record
import StorageUpgrade.Json.Writer
import StorageUpgrade.Report.Csv
import StorageUpgrade.Report.Table
import StorageUpgrade.Views

/-!
# Report on one comparison

The table shows the two views side by side, the counts, the verdict and a legend. As CSV there is
one record for every finding.
-/
namespace StorageUpgrade.Report

def noChanges : String := "No storage layout changes."

def legend : String := "🏴 problematic  🏳️ moved  🏁 moved & problematic  🪦 removed  🌱 new"

/-- JSON text of a value in the form that the settings ask for. -/
def jsonText (s : Settings) (v : Json) : String := if s.compact then v.compact else v.pretty

/-- A comparison and where the two documents came from. -/
structure ComparisonReport where
  oldPath : String
  newPath : String
  comparison : Comparison

namespace ComparisonReport

def row (f : Finding) : Json :=
  .object [
    ("classification", .string f.classification.name),
    ("slot", .string (toString f.slot)),
    ("offset", .number (.natural f.offset)),
    ("label", .string f.label),
    ("type_label", .string f.typeLabel),
    ("old_label", .string ((f.old.map View.label).getD "")),
    ("old_type", .string ((f.old.map View.typeLabel).getD "")),
    ("dirty_bytes", match f.dirtyBytes with
      | some n => .string (toString n)
      | none => .null)]

def columns : List Column :=
  ["classification", "slot", "offset", "label"].map (fun key => { name := key, key }) ++
    [{ name := "type", key := "type_label" }] ++
    ["old_label", "old_type", "dirty_bytes"].map (fun key => { name := key, key })

def views (r : ComparisonReport) : Views := .ofFindings r.comparison.findings

/-- The lines of the two views side by side. -/
def bodyRows (r : ComparisonReport) : List (List String) :=
  ((Text.lines r.views.old).zip (Text.lines r.views.new)).map fun (old, new) => [old, new]

/-- The counters that are not zero, and the number of dirty bytes. -/
def counts (r : ComparisonReport) : List (String × String) :=
  let s := r.comparison.summary
  let counted := (Classification.all.filter fun c => s.count c ≠ 0).map fun c =>
    (c.name, toString (s.count c).toNat)
  if s.dirtyBytes = 0 then counted else counted ++ [("dirty_bytes", toString s.dirtyBytes)]

def verdict (r : ComparisonReport) (s : Settings) : String :=
  let word :=
    if r.comparison.hasUnsafeFindings then s.paint .boldRed "UNSAFE:"
    else s.paint .boldGreen "SAFE:"
  word ++ " " ++ r.comparison.summaryText

def table (r : ComparisonReport) (s : Settings) : String :=
  if !r.comparison.isChanged then noChanges
  else
    Text.join "\n" [
      rowsTable [r.oldPath ++ " (old)", r.newPath ++ " (new)"] r.bodyRows s,
      keyValueTable r.counts s,
      r.verdict s,
      s.paint .dimmed legend]

def toJson (r : ComparisonReport) : Json :=
  .object [
    ("old_path", .string r.oldPath),
    ("new_path", .string r.newPath),
    ("result", r.comparison.toJson)]

def csv (r : ComparisonReport) : String := csvText columns (r.comparison.findings.map row)

/-- The report in the form of the settings. A diff is shown as a table here. -/
def text (r : ComparisonReport) (s : Settings) : String :=
  match s.format with
  | .table | .diff => r.table s
  | .json => jsonText s r.toJson
  | .csv => r.csv

end ComparisonReport

end StorageUpgrade.Report
