import StorageUpgrade.Comparison
import StorageUpgrade.Layout.Record

/-!
# Comparisons as JSON values

A side of a finding that is not there is written as null.
-/
namespace StorageUpgrade

open Json (Reason)

def Classification.schema : Schema := .choice (Classification.all.map Classification.name)

def Classification.ofData (i : Classification.schema.Data) : Classification :=
  let i : Fin (Classification.all.map Classification.name).length := i
  Classification.all.get (i.cast (List.length_map _))

def Classification.toData : Classification → Classification.schema.Data
  | unchanged => (⟨0, by decide⟩ : Fin _)
  | moved => (⟨1, by decide⟩ : Fin _)
  | new => (⟨2, by decide⟩ : Fin _)
  | removed => (⟨3, by decide⟩ : Fin _)
  | problematic => (⟨4, by decide⟩ : Fin _)
  | movedAndProblematic => (⟨5, by decide⟩ : Fin _)
  | dirtyByteRun => (⟨6, by decide⟩ : Fin _)

def Classification.ofJson (v : Json) : Except Reason Classification :=
  (Classification.schema.check v).map ofData

def Classification.toJson (c : Classification) : Json := Classification.schema.encode c.toData

def View.schema : Schema :=
  .record "EntryView" <|
    .cons "label" .required .text <|
    .cons "type_label" .required .text <|
    .cons "slot" .required .position <|
    .cons "offset" .required .word64 <|
    .cons "start" .required .position <|
    .cons "end" .required .position .nil

def View.ofData : View.schema.Data → View
  | (label, typeLabel, slot, offset, start, stop, ()) =>
    ⟨label, typeLabel, slot, offset, start, stop⟩

def View.toData (v : View) : View.schema.Data :=
  (v.label, v.typeLabel, v.slot, v.offset, v.start, v.stop, ())

def View.toJson (v : View) : Json := View.schema.encode v.toData

def Finding.schema : Schema :=
  .record "ClassifiedEntry" <|
    .cons "classification" .required Classification.schema <|
    .cons "start" .required .position <|
    .cons "old" .required (.option View.schema) <|
    .cons "new" .required (.option View.schema) .nil

def Finding.ofData : Finding.schema.Data → Finding
  | (classification, start, old, new, ()) =>
    ⟨.ofData classification, start, (old : Option View.schema.Data).map View.ofData,
      (new : Option View.schema.Data).map View.ofData⟩

def Finding.toData (f : Finding) : Finding.schema.Data :=
  (f.classification.toData, f.start, f.old.map View.toData, f.new.map View.toData, ())

def Finding.ofJson (v : Json) : Except Reason Finding := (Finding.schema.check v).map ofData

def Finding.toJson (f : Finding) : Json := Finding.schema.encode f.toData

def Summary.schema : Schema :=
  .record "DeltaSummary" <|
    .cons "unchanged" .required .word32 <|
    .cons "moved" .required .word32 <|
    .cons "new" .required .word32 <|
    .cons "removed" .required .word32 <|
    .cons "problematic" .required .word32 <|
    .cons "moved_and_problematic" .required .word32 <|
    .cons "dirty_byte_runs" .required .word32 <|
    .cons "dirty_bytes" .required .position <|
    .cons "unsafe_findings" .required .word32 .nil

def Summary.ofData : Summary.schema.Data → Summary
  | (unchanged, moved, new, removed, problematic, movedAndProblematic, dirtyByteRuns, dirtyBytes,
      unsafeFindings, ()) =>
    ⟨unchanged, moved, new, removed, problematic, movedAndProblematic, dirtyByteRuns, dirtyBytes,
      unsafeFindings⟩

def Summary.toData (s : Summary) : Summary.schema.Data :=
  (s.unchanged, s.moved, s.new, s.removed, s.problematic, s.movedAndProblematic, s.dirtyByteRuns,
    s.dirtyBytes, s.unsafeFindings, ())

def Summary.ofJson (v : Json) : Except Reason Summary := (Summary.schema.check v).map ofData

def Summary.toJson (s : Summary) : Json := Summary.schema.encode s.toData

/-- The JSON value of a comparison. No time is measured. -/
def Comparison.toJson (c : Comparison) : Json :=
  .object [
    ("entries", .array (c.findings.map Finding.toJson)),
    ("summary", c.summary.toJson),
    ("summary_text", .string c.summaryText),
    ("duration_ms", .number (.float (.zero false)))]

/-- The JSON value of an outcome: the comparison, or the wording of its error. -/
def Outcome.toJson (o : Outcome) : Json :=
  let result :=
    match o.result with
    | .ok c => ("ok", c.toJson)
    | .error e => ("error", .string e.message)
  .object [("name", .string o.name), ("result", .object [result])]

end StorageUpgrade
