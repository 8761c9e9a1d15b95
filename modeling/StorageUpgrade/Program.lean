import StorageUpgrade.Batch
import StorageUpgrade.CommandLine
import StorageUpgrade.Config
import StorageUpgrade.LineDiff.Unified
import StorageUpgrade.Report.Batch

/-!
# The program

A command reads the files it needs, prints its report and succeeds or fails. Success depends on
what was found and not on how it is shown. A comparison without an end leaves the program without
one, and then it says nothing.
-/
namespace StorageUpgrade.Program

/-- Why a command failed, and what caused that. The outermost cause comes first. -/
structure Failure where
  message : String
  causes : List String := []
  deriving DecidableEq

structure Run where
  output : String
  failure : Option Failure
  deriving DecidableEq

/-- What a report has to show and when it is a failure. -/
structure Options where
  /-- Print nothing about what is safe. -/
  omitNew : Bool
  strict : Bool
  /-- Lines around a change in a diff. -/
  context : Nat

/-- A printed text ends with a line feed. An empty one is not printed. -/
def printed (text : String) : String := if text.isEmpty then "" else text ++ "\n"

def readDocument (t : FileTree) (path : String) : Except Failure Document := do
  let text ← (t.read path).mapError fun fault => ⟨"Failed to read " ++ path, [fault.message]⟩
  (Document.ofText text).mapError fun fault =>
    ⟨"Invalid storage layout JSON in " ++ path, (Error.json fault).causes⟩

def compareFiles (t : FileTree) (old new : String) : Option (Except Failure Comparison) :=
  match readDocument t old, readDocument t new with
  | .error f, _ => some (.error f)
  | .ok _, .error f => some (.error f)
  | .ok oldDocument, .ok newDocument =>
    (compareDocuments oldDocument newDocument).map fun result => result.mapError fun e =>
      ⟨"Failed to compare " ++ old ++ " with " ++ new, e.causes⟩

/-- The report on a comparison. As a diff it shows the lines that differ between the views. -/
def comparisonText (r : Report.ComparisonReport) (context : Nat) (s : Report.Settings) : String :=
  match s.format with
  | .diff => LineDiff.unified r.oldPath r.newPath context r.views.old r.views.new
  | _ => r.text s

def unsafeComparison (c : Comparison) : Failure :=
  ⟨toString c.summary.unsafeFindings.toNat ++
    " unsafe storage layout finding(s); the upgrade may corrupt state", []⟩

/-- What `compare` comes to once the two files are compared. -/
def afterCompare (old new : String) (o : Options) (s : Report.Settings) :
    Except Failure Comparison → Run
  | .error f => ⟨"", some f⟩
  | .ok c =>
    let output :=
      if o.omitNew && !c.hasUnsafeFindings then ""
      else printed (comparisonText ⟨old, new, c⟩ o.context s)
    ⟨output, if o.strict && c.hasUnsafeFindings then some (unsafeComparison c) else none⟩

def runCompare (t : FileTree) (old new : String) (o : Options) (s : Report.Settings) :
    Option Run :=
  (compareFiles t old new).map (afterCompare old new o s)

/-- The outcome is worth showing when only hazards are to be shown. -/
def isNotable (o : Outcome) : Bool :=
  Report.BatchReport.isError o || Report.BatchReport.isUnsafe o

def batchFailure? (r : Report.BatchReport) (strict : Bool) : Option Failure :=
  if r.errorCount ≠ 0 then
    some ⟨toString r.errorCount ++ " layout file(s) could not be compared", []⟩
  else if strict ∧ r.unsafeCount ≠ 0 then
    some ⟨toString r.unsafeCount ++ " layout file(s) with unsafe storage changes", []⟩
  else none

/-- What `batch` comes to once the outcomes are collected. -/
def afterBatch (oldDir newDir : String) (o : Options) (s : Report.Settings) :
    Except Error (List Outcome) → Run
  | .error e => ⟨"", some ⟨Batch.searchFailure, e.causes⟩⟩
  | .ok outcomes =>
    let shown := if o.omitNew then outcomes.filter isNotable else outcomes
    let report : Report.BatchReport := ⟨oldDir, newDir, shown⟩
    ⟨if o.omitNew && shown.isEmpty then "" else printed (report.text s),
      batchFailure? report o.strict⟩

def runBatch (t : FileTree) (oldDir newDir : String) (b : Batch.Settings) (o : Options)
    (s : Report.Settings) : Option Run :=
  (Batch.collect t oldDir newDir b).map (afterBatch oldDir newDir o s)

/-- How a request is shown: its own form, or else the preferred one. The output is taken for a file,
so it has no colours unless they are preferred, and nothing is cut off. -/
def settingsOf (config : Config) (r : CommandLine.Request) : Report.Settings where
  format := (r.format.or (config.format.bind Report.Format.parse?)).getD .table
  color := config.color.getD false
  compact := r.compact || config.compact

def carryOut (t : FileTree) (r : CommandLine.Request) : Option Run :=
  let config := Config.ofTree t
  let s := settingsOf config r
  match r.command with
  | .compare old new omitNew strict context =>
    runCompare t old new ⟨omitNew || config.omitNew, strict, context.getD config.context⟩ s
  | .batch oldDir newDir omitNew strict threads =>
    runBatch t oldDir newDir
      ⟨config.layoutExtensions, config.ignorePatterns, threads.or config.threads⟩
      ⟨omitNew || config.omitNew, strict, config.context⟩ s
  | .completions shell => some ⟨printed (Report.CompletionReport.text shell s), none⟩

/-- A cause on lines of its own, with its number if there are several. -/
def causeText (number : Option Nat) (cause : String) : String :=
  let (first, next) := match number with
    | none => ("    ", "    ")
    | some n => (String.ofList (List.replicate (5 - (toString n).length) ' ') ++ toString n ++ ": ",
        "       ")
  first ++ Text.join ("\n" ++ next) (Text.lines cause) ++ "\n"

/-- The causes, counted from zero. -/
def causesText : List String → String
  | [] => ""
  | [cause] => "\nCaused by:\n" ++ causeText none cause
  | causes => "\nCaused by:\n" ++
      Text.join "" ((causes.zipIdx).map fun (cause, n) => causeText (some n) cause)

def Failure.text (f : Failure) : String := "Error: " ++ f.message ++ "\n" ++ causesText f.causes

/-- Status, output and messages of a run of the program. -/
structure Response where
  status : UInt32
  output : String
  messages : String
  deriving DecidableEq

def version : String := "0.1.0"

def usage : String :=
  Text.join "\n" [
    "Usage: " ++ Report.programName ++ " [OPTIONS] <COMMAND>",
    "",
    "Commands:",
    "  compare <OLD> <NEW> [--omit-new] [--strict] [-U <CONTEXT>]",
    "  batch <OLD_DIR> <NEW_DIR> [-j <THREADS>] [--omit-new] [--strict]",
    "  completions <SHELL> [--instructions]",
    "",
    "Options:",
    "  -v, --verbose  -q, --quiet  --format <table|json|csv|diff>  --compact",
    "  -h, --help  -V, --version"]

/-- What the program says when it has nothing to do. -/
def stopped : CommandLine.Stop → Response
  | .misuse => ⟨2, "", usage ++ "\n"⟩
  | .help => ⟨0, usage ++ "\n", ""⟩
  | .version verb =>
    let name := match verb with
      | none => Report.programName
      | some v => Report.programName ++ "-" ++ v.name
    ⟨0, name ++ " " ++ version ++ "\n", ""⟩

def respond (r : Run) : Response :=
  match r.failure with
  | none => ⟨0, r.output, ""⟩
  | some f => ⟨1, r.output, f.text⟩

/-- The response to a command line, if the program comes to an end. -/
def run (t : FileTree) (args : List String) : Option Response :=
  match CommandLine.read args with
  | .error stop => some (stopped stop)
  | .ok request => (carryOut t request).map respond

end StorageUpgrade.Program
