import StorageUpgrade.Report.Comparison

/-!
# Report on a batch

One row for every pair of files, and a last line that counts the unsafe ones and the errors.
-/
namespace StorageUpgrade.Report

/-- The outcomes of a batch and the directories that were compared. -/
structure BatchReport where
  oldDir : String
  newDir : String
  outcomes : List Outcome

namespace BatchReport

def isError (o : Outcome) : Bool :=
  match o.result with
  | .ok _ => false
  | .error _ => true

def isUnsafe (o : Outcome) : Bool :=
  match o.result with
  | .ok c => c.hasUnsafeFindings
  | .error _ => false

def errorCount (r : BatchReport) : Nat := r.outcomes.countP isError

def unsafeCount (r : BatchReport) : Nat := r.outcomes.countP isUnsafe

def status (c : Comparison) : String :=
  if c.hasUnsafeFindings then "unsafe" else if c.isChanged then "changed" else "unchanged"

def row (o : Outcome) : Json :=
  match o.result with
  | .ok c =>
    .object [
      ("file", .string o.name),
      ("status", .string (status c)),
      ("unsafe_findings", .number (.natural c.summary.unsafeFindings.toUInt64)),
      ("dirty_bytes", .string (toString c.summary.dirtyBytes)),
      ("summary", .string c.summaryText)]
  | .error e =>
    .object [
      ("file", .string o.name),
      ("status", .string "error"),
      ("unsafe_findings", .null),
      ("dirty_bytes", .null),
      ("summary", .string e.message)]

def columns : List Column := [
  { name := "File", key := "file", maxWidth := some 48 },
  { name := "Status", key := "status" },
  { name := "Unsafe", key := "unsafe_findings", side := .right },
  { name := "Dirty bytes", key := "dirty_bytes", side := .right },
  { name := "Summary", key := "summary" }]

def footer (r : BatchReport) (s : Settings) : String :=
  let hazards :=
    if r.unsafeCount = 0 then s.paint .green "0 unsafe"
    else s.paint .boldRed (toString r.unsafeCount ++ " unsafe")
  let errors :=
    if r.errorCount = 0 then "0 errors"
    else s.paint .yellow (toString r.errorCount ++ " error(s)")
  "Compared " ++ toString r.outcomes.length ++ " layout file(s): " ++ hazards ++ ", " ++ errors

def table (r : BatchReport) (s : Settings) : String :=
  columnsTable columns (r.outcomes.map row) s ++ "\n" ++ r.footer s

def toJson (r : BatchReport) : Json :=
  .object [
    ("old_dir", .string r.oldDir),
    ("new_dir", .string r.newDir),
    ("files", .array (r.outcomes.map Outcome.toJson))]

/-- The report as CSV, with the keys of the columns as headings. -/
def csv (r : BatchReport) : String :=
  csvText (columns.map fun c => { name := c.key, key := c.key }) (r.outcomes.map row)

/-- The report in the form of the settings. A diff is shown as a table. -/
def text (r : BatchReport) (s : Settings) : String :=
  match s.format with
  | .table | .diff => r.table s
  | .json => jsonText s r.toJson
  | .csv => r.csv

end BatchReport

end StorageUpgrade.Report
