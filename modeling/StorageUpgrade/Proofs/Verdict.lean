import StorageUpgrade.Program
import StorageUpgrade.Proofs.Batch
import StorageUpgrade.Proofs.Reports
import StorageUpgrade.Proofs.SummaryText

/-!
# Success and failure of the program

Whether a command fails depends on the files and on what is found in them, and of the options on
strictness alone. When only hazards are to be shown, the reports on them are the same as ever, and
nothing is lost that counts.
-/
namespace StorageUpgrade.Program

open Report (BatchReport)

/-- The file can be read, and it is this document. -/
def Holds (t : FileTree) (path : String) (d : Document) : Prop :=
  ∃ text, t.read path = .ok text ∧ Document.ofText text = .ok d

/-- A comparison fails for want of a document, for an error, or for a hazard if it is strict. -/
inductive CompareFails (t : FileTree) (old new : String) (strict : Bool) : Prop where
  | oldMissing (h : ¬ ∃ d, Holds t old d)
  | newMissing (h : ¬ ∃ e, Holds t new e)
  | stopped {d e : Document} {error : Error} (hd : Holds t old d) (he : Holds t new e)
      (h : compareDocuments d e = some (.error error))
  | hazard {d e : Document} {c : Comparison} (hd : Holds t old d) (he : Holds t new e)
      (h : compareDocuments d e = some (.ok c)) (hhazard : c.hasUnsafeFindings = true)
      (hstrict : strict = true)

/-- A batch fails for want of a directory, for an outcome that is an error, or for a hazard if it is
strict. -/
inductive BatchFails (t : FileTree) (oldDir newDir : String) (b : Batch.Settings) (strict : Bool) :
    Prop where
  | notSearched {error : Error} (h : Batch.collect t oldDir newDir b = some (.error error))
  | stopped {os : List Outcome} {o : Outcome} {error : Error}
      (h : Batch.collect t oldDir newDir b = some (.ok os)) (ho : o ∈ os)
      (herror : o.result = .error error)
  | hazard {os : List Outcome} {o : Outcome} {c : Comparison}
      (h : Batch.collect t oldDir newDir b = some (.ok os)) (ho : o ∈ os) (hc : o.result = .ok c)
      (hhazard : c.hasUnsafeFindings = true) (hstrict : strict = true)

/-- The command comes to an end and fails. -/
def Fails (run : Option Run) : Prop := ∃ r, run = some r ∧ r.failure.isSome = true

theorem fails_some {r : Run} : Fails (some r) ↔ r.failure.isSome = true := by
  simp [Fails]

theorem not_fails_none : ¬ Fails none := by
  simp [Fails]

variable {t : FileTree} {path old new : String} {d e : Document} {c : Comparison} {o : Outcome}

section Compare

theorem mapError_eq_ok_iff {ε ε' α : Type} {f : ε → ε'} {x : Except ε α} {a : α} :
    x.mapError f = .ok a ↔ x = .ok a := by
  cases x <;> simp [Except.mapError]

theorem readDocument_eq_ok_iff : readDocument t path = .ok d ↔ Holds t path d := by
  simp only [readDocument, bind_eq_ok_iff, mapError_eq_ok_iff, Holds]

theorem Holds.unique (hd : Holds t path d) (he : Holds t path e) : d = e :=
  Except.ok.inj ((readDocument_eq_ok_iff.2 hd).symm.trans (readDocument_eq_ok_iff.2 he))

/-- Documents at hand are the only ones. -/
theorem exists_holds_iff {P : Document → Document → Prop} (hd : Holds t old d)
    (he : Holds t new e) : (∃ d e, Holds t old d ∧ Holds t new e ∧ P d e) ↔ P d e := by
  constructor
  · rintro ⟨d', e', hd', he', h⟩
    rwa [hd.unique hd', he.unique he']
  · exact fun h => ⟨d, e, hd, he, h⟩

/-- Two documents at hand are compared. -/
theorem compareFiles_of_holds (hd : Holds t old d) (he : Holds t new e) :
    compareFiles t old new = (compareDocuments d e).map fun result => result.mapError fun e =>
      ⟨"Failed to compare " ++ old ++ " with " ++ new, e.causes⟩ := by
  rw [compareFiles, readDocument_eq_ok_iff.2 hd, readDocument_eq_ok_iff.2 he]

/-- Without two documents there is nothing to compare. -/
theorem compareFiles_of_missing (h : ¬ ((∃ d, Holds t old d) ∧ ∃ e, Holds t new e)) :
    ∃ f, compareFiles t old new = some (.error f) := by
  rw [compareFiles]
  cases hd : readDocument t old with
  | error f => exact ⟨f, rfl⟩
  | ok d =>
    cases he : readDocument t new with
    | error f => exact ⟨f, rfl⟩
    | ok e =>
      exact absurd ⟨⟨d, readDocument_eq_ok_iff.1 hd⟩, ⟨e, readDocument_eq_ok_iff.1 he⟩⟩ h

theorem compareFiles_eq_ok_iff :
    compareFiles t old new = some (.ok c) ↔
      ∃ d e, Holds t old d ∧ Holds t new e ∧ compareDocuments d e = some (.ok c) := by
  by_cases h : (∃ d, Holds t old d) ∧ ∃ e, Holds t new e
  · obtain ⟨⟨d, hd⟩, e, he⟩ := h
    rw [exists_holds_iff hd he, compareFiles_of_holds hd he, Option.map_eq_some_iff]
    simp only [mapError_eq_ok_iff, exists_eq_right]
  · obtain ⟨f, hf⟩ := compareFiles_of_missing h
    rw [hf]
    exact iff_of_false nofun fun ⟨d, e, hd, he, _⟩ => h ⟨⟨d, hd⟩, e, he⟩

theorem compareFiles_eq_none_iff :
    compareFiles t old new = none ↔ ∃ d e, Holds t old d ∧ Holds t new e ∧ d.Endless e := by
  by_cases h : (∃ d, Holds t old d) ∧ ∃ e, Holds t new e
  · obtain ⟨⟨d, hd⟩, e, he⟩ := h
    rw [exists_holds_iff hd he, compareFiles_of_holds hd he, Option.map_eq_none_iff,
      compareDocuments_eq_none_iff]
  · obtain ⟨f, hf⟩ := compareFiles_of_missing h
    rw [hf]
    exact iff_of_false nofun fun ⟨d, e, hd, he, _⟩ => h ⟨⟨d, hd⟩, e, he⟩

theorem compareFails_iff_of_holds {strict : Bool} (hd : Holds t old d) (he : Holds t new e) :
    CompareFails t old new strict ↔
      (∃ error, compareDocuments d e = some (.error error)) ∨
        ∃ c, compareDocuments d e = some (.ok c) ∧ c.hasUnsafeFindings = true ∧ strict = true := by
  constructor
  · intro hfails
    cases hfails with
    | oldMissing hnone => exact absurd ⟨d, hd⟩ hnone
    | newMissing hnone => exact absurd ⟨e, he⟩ hnone
    | stopped hd' he' herror =>
      rw [hd'.unique hd, he'.unique he] at herror
      exact .inl ⟨_, herror⟩
    | hazard hd' he' hok hhazard hstrict =>
      rw [hd'.unique hd, he'.unique he] at hok
      exact .inr ⟨_, hok, hhazard, hstrict⟩
  · rintro (⟨error, herror⟩ | ⟨c, hok, hhazard, hstrict⟩)
    · exact .stopped hd he herror
    · exact .hazard hd he hok hhazard hstrict

theorem compareFails_of_missing {strict : Bool}
    (h : ¬ ((∃ d, Holds t old d) ∧ ∃ e, Holds t new e)) : CompareFails t old new strict := by
  by_cases hold : ∃ d, Holds t old d
  · exact .newMissing fun hnew => h ⟨hold, hnew⟩
  · exact .oldMissing hold

/-- A comparison tells of a hazard exactly when there is one among its findings, as long as they can
be counted. -/
def TellsHazard (c : Comparison) : Prop :=
  c.findings.length < 2 ^ 32 →
    (c.hasUnsafeFindings = true ↔ ∃ f ∈ c.findings, f.classification.isUnsafe = true)

theorem tellsHazard_of_layouts {old new : Layout} (h : compareLayouts old new = some (.ok c)) :
    TellsHazard c := by
  obtain ⟨fs, dirtyBytes, rfl⟩ : ∃ fs dirtyBytes, c = .ofFindings fs dirtyBytes := by
    rcases compareLayouts_stages h with h | ⟨_, _, _, _, _, h⟩ <;> exact ⟨_, _, h⟩
  intro hlen
  rw [Comparison.findings_ofFindings] at hlen ⊢
  rw [← Bool.not_eq_false, Comparison.hasUnsafeFindings_ofFindings _ hlen]
  simp

theorem tellsHazard_of_documents (h : compareDocuments d e = some (.ok c)) : TellsHazard c := by
  unfold compareDocuments at h
  split at h
  · cases h
  · cases h
  · exact tellsHazard_of_layouts h

theorem afterCompare_failure (old new : String) (o : Options) (s : Report.Settings)
    (result : Except Failure Comparison) : (afterCompare old new o s result).failure =
      match result with
      | .error f => some f
      | .ok c => if o.strict && c.hasUnsafeFindings then some (unsafeComparison c) else none := by
  cases result <;> rfl

theorem runCompare_failure_iff (t : FileTree) (old new : String) (o : Options)
    (s : Report.Settings) :
    Fails (runCompare t old new o s) ↔ CompareFails t old new o.strict := by
  rw [runCompare]
  by_cases h : (∃ d, Holds t old d) ∧ ∃ e, Holds t new e
  · obtain ⟨⟨d, hd⟩, e, he⟩ := h
    rw [compareFiles_of_holds hd he, compareFails_iff_of_holds hd he]
    cases compareDocuments d e with
    | none => exact iff_of_false not_fails_none (by simp)
    | some result =>
      rw [Option.map_some, Option.map_some, fails_some, afterCompare_failure]
      cases result with
      | error error => exact iff_of_true rfl (.inl ⟨error, rfl⟩)
      | ok c => simp [Except.mapError, and_comm]
  · obtain ⟨f, hf⟩ := compareFiles_of_missing h
    rw [hf, Option.map_some, fails_some]
    exact iff_of_true rfl (compareFails_of_missing h)

/-- What is shown, and how, has no influence on the failure of a comparison. -/
theorem runCompare_failure_eq {o o' : Options} (h : o'.strict = o.strict) (s s' : Report.Settings) :
    (runCompare t old new o' s').map Run.failure = (runCompare t old new o s).map Run.failure := by
  rw [runCompare, runCompare, Option.map_map, Option.map_map]
  refine Option.map_congr fun result _ => ?_
  simp only [Function.comp_apply, afterCompare_failure, h]

end Compare

section Batch

variable {oldDir newDir : String} {b : Batch.Settings} {os : List Outcome}

/-- The outcomes of a batch that are no errors are comparisons of documents. -/
theorem exists_compareDocuments_of_mem (h : Batch.collect t oldDir newDir b = some (.ok os))
    (ho : o ∈ os) (hc : o.result = .ok c) : ∃ d e, compareDocuments d e = some (.ok c) := by
  cases hpairing : Pairing.ofDirectories t oldDir newDir (some b.extensions) b.ignorePatterns with
  | error e =>
    rw [Batch.collect, hpairing] at h
    cases h
  | ok pairing =>
    rw [Batch.collect_eq_mapM hpairing] at h
    obtain ⟨os, hos, h⟩ := Option.map_eq_some_iff.1 h
    cases h
    obtain ⟨p, _, hp⟩ := FilePair.exists_of_mem_outcomes hos ho
    exact p.exists_documents hp hc

theorem isError_iff : BatchReport.isError o = true ↔ ∃ e, o.result = .error e := by
  unfold BatchReport.isError
  cases o.result <;> simp

theorem isUnsafe_iff :
    BatchReport.isUnsafe o = true ↔ ∃ c, o.result = .ok c ∧ c.hasUnsafeFindings = true := by
  unfold BatchReport.isUnsafe
  cases o.result <;> simp

theorem errorCount_ne_zero_iff :
    BatchReport.errorCount ⟨oldDir, newDir, os⟩ ≠ 0 ↔ ∃ o ∈ os, ∃ e, o.result = .error e := by
  simp only [BatchReport.errorCount, ← Nat.pos_iff_ne_zero, List.countP_pos_iff, isError_iff]

theorem unsafeCount_ne_zero_iff :
    BatchReport.unsafeCount ⟨oldDir, newDir, os⟩ ≠ 0 ↔
      ∃ o ∈ os, ∃ c, o.result = .ok c ∧ c.hasUnsafeFindings = true := by
  simp only [BatchReport.unsafeCount, ← Nat.pos_iff_ne_zero, List.countP_pos_iff, isUnsafe_iff]

/-- A count of notable outcomes does not notice that the others are left out. -/
theorem countP_filter_isNotable {counts : Outcome → Bool}
    (h : ∀ o, counts o = true → isNotable o = true) (os : List Outcome) :
    (os.filter isNotable).countP counts = os.countP counts := by
  rw [List.countP_filter]
  refine List.countP_congr fun o _ => ?_
  simpa using h o

theorem errorCount_filter (os : List Outcome) :
    BatchReport.errorCount ⟨oldDir, newDir, os.filter isNotable⟩ =
      BatchReport.errorCount ⟨oldDir, newDir, os⟩ :=
  countP_filter_isNotable (fun o ho => by simp [isNotable, ho]) os

theorem unsafeCount_filter (os : List Outcome) :
    BatchReport.unsafeCount ⟨oldDir, newDir, os.filter isNotable⟩ =
      BatchReport.unsafeCount ⟨oldDir, newDir, os⟩ :=
  countP_filter_isNotable (fun o ho => by simp [isNotable, ho]) os

theorem batchFailure?_isSome_iff {r : BatchReport} {strict : Bool} :
    (batchFailure? r strict).isSome ↔ r.errorCount ≠ 0 ∨ strict = true ∧ r.unsafeCount ≠ 0 := by
  unfold batchFailure?
  split_ifs with herror hhazard
  · exact iff_of_true rfl (.inl herror)
  · exact iff_of_true rfl (.inr hhazard)
  · exact iff_of_false (by simp) (not_or.2 ⟨herror, hhazard⟩)

/-- The failure of a batch is that of all its outcomes, whether or not all of them are shown. -/
theorem afterBatch_failure (oldDir newDir : String) (os : List Outcome) (o : Options)
    (s : Report.Settings) : (afterBatch oldDir newDir o s (.ok os)).failure =
      batchFailure? ⟨oldDir, newDir, os⟩ o.strict := by
  unfold afterBatch
  cases o.omitNew with
  | false => rfl
  | true => simp only [batchFailure?, if_true, errorCount_filter, unsafeCount_filter]

theorem batchFails_iff_of_ok {strict : Bool} (h : Batch.collect t oldDir newDir b = some (.ok os)) :
    BatchFails t oldDir newDir b strict ↔
      (∃ o ∈ os, ∃ e, o.result = .error e) ∨
        strict = true ∧ ∃ o ∈ os, ∃ c, o.result = .ok c ∧ c.hasUnsafeFindings = true := by
  constructor
  · intro hfails
    cases hfails with
    | notSearched herror =>
      rw [h] at herror
      cases herror
    | stopped hok ho herror =>
      rw [h] at hok
      cases hok
      exact .inl ⟨_, ho, _, herror⟩
    | hazard hok ho hc hhazard hstrict =>
      rw [h] at hok
      cases hok
      exact .inr ⟨hstrict, _, ho, _, hc, hhazard⟩
  · rintro (⟨o, ho, e, herror⟩ | ⟨hstrict, o, ho, c, hc, hhazard⟩)
    · exact .stopped h ho herror
    · exact .hazard h ho hc hhazard hstrict

theorem not_batchFails_of_endless {strict : Bool} (h : Batch.collect t oldDir newDir b = none) :
    ¬ BatchFails t oldDir newDir b strict := by
  intro hfails
  cases hfails with
  | notSearched herror => exact nomatch h.symm.trans herror
  | stopped hok _ _ => exact nomatch h.symm.trans hok
  | hazard hok _ _ _ _ => exact nomatch h.symm.trans hok

theorem runBatch_failure_iff (t : FileTree) (oldDir newDir : String) (b : Batch.Settings)
    (o : Options) (s : Report.Settings) :
    Fails (runBatch t oldDir newDir b o s) ↔ BatchFails t oldDir newDir b o.strict := by
  rw [runBatch]
  cases h : Batch.collect t oldDir newDir b with
  | none => exact iff_of_false not_fails_none (not_batchFails_of_endless h)
  | some result =>
    rw [Option.map_some, fails_some]
    cases result with
    | error e => exact iff_of_true rfl (.notSearched h)
    | ok os =>
      rw [afterBatch_failure, batchFailure?_isSome_iff, batchFails_iff_of_ok h,
        errorCount_ne_zero_iff, unsafeCount_ne_zero_iff]

theorem runBatch_failure_eq {o o' : Options} (h : o'.strict = o.strict) (s s' : Report.Settings) :
    (runBatch t oldDir newDir b o' s').map Run.failure =
      (runBatch t oldDir newDir b o s).map Run.failure := by
  rw [runBatch, runBatch, Option.map_map, Option.map_map]
  refine Option.map_congr fun result _ => ?_
  rw [Function.comp_apply, Function.comp_apply]
  cases result with
  | error e => rfl
  | ok os => rw [afterBatch_failure, afterBatch_failure, h]

theorem isNotable_iff :
    isNotable o = true ↔
      (∃ e, o.result = .error e) ∨ ∃ c, o.result = .ok c ∧ c.hasUnsafeFindings = true := by
  rw [isNotable, Bool.or_eq_true_iff, isError_iff, isUnsafe_iff]

/-- The output lists these outcomes of a batch, all errors and hazards of which are counted. -/
def Prints (oldDir newDir : String) (os shown : List Outcome) (s : Report.Settings)
    (output : String) : Prop :=
  ∃ text, output = text ++ "\n" ∧
    BatchReport.Lists oldDir newDir shown (os.countP BatchReport.isUnsafe)
      (os.countP BatchReport.isError) s text

theorem prints_text (r : BatchReport) (s : Report.Settings)
    (hhazards : r.unsafeCount = os.countP BatchReport.isUnsafe)
    (herrors : r.errorCount = os.countP BatchReport.isError) :
    Prints r.oldDir r.newDir os r.outcomes s (printed (r.text s)) := by
  have hne : ¬ (r.text s).isEmpty = true := by
    rw [String.isEmpty_iff]
    exact r.text_ne_empty s
  refine ⟨r.text s, if_neg hne, ?_⟩
  rw [← hhazards, ← herrors]
  exact r.lists_text s

/-- A batch lists the errors and hazards alone, unless there are none. -/
theorem afterBatch_omitNew (os : List Outcome) (o : Options) (s : Report.Settings) :
    if os.filter isNotable = [] then
      (afterBatch oldDir newDir { o with omitNew := true } s (.ok os)).output = ""
    else Prints oldDir newDir os (os.filter isNotable) s
      (afterBatch oldDir newDir { o with omitNew := true } s (.ok os)).output := by
  simp only [afterBatch, if_true, Bool.true_and, List.isEmpty_iff]
  split_ifs with hnone
  · rfl
  · exact prints_text ⟨oldDir, newDir, os.filter isNotable⟩ s (unsafeCount_filter os)
      (errorCount_filter os)

theorem afterBatch_all (os : List Outcome) (o : Options) (s : Report.Settings) :
    Prints oldDir newDir os os s
      (afterBatch oldDir newDir { o with omitNew := false } s (.ok os)).output :=
  prints_text ⟨oldDir, newDir, os⟩ s rfl rfl

end Batch

/-- The part of the options and settings in a comparison: they decide what is shown, and strictness
alone decides on failure. -/
structure CompareByFindings (t : FileTree) (old new : String) (o : Options) (s : Report.Settings) :
    Prop where
  failure_iff : Fails (runCompare t old new o s) ↔ CompareFails t old new o.strict
  /-- There is no run at all when the sweep over the two layouts has no end. -/
  endless_iff : runCompare t old new o s = none ↔
    ∃ d e, Holds t old d ∧ Holds t new e ∧ d.Endless e
  hazard : ∀ c, compareFiles t old new = some (.ok c) → TellsHazard c
  failure_eq : ∀ (o' : Options) (s' : Report.Settings), o'.strict = o.strict →
    (runCompare t old new o' s').map Run.failure = (runCompare t old new o s).map Run.failure
  /-- Without a hazard nothing is shown when only hazards are to be shown. -/
  silent : (∀ c, compareFiles t old new = some (.ok c) → c.hasUnsafeFindings = false) →
    ∀ r, runCompare t old new { o with omitNew := true } s = some r → r.output = ""
  /-- With a hazard all is shown, as ever. -/
  shown : ∀ c, compareFiles t old new = some (.ok c) → c.hasUnsafeFindings = true →
    ∃ r, runCompare t old new { o with omitNew := true } s = some r ∧
      runCompare t old new { o with omitNew := false } s = some r

/-- The part of the options and settings in a batch. -/
structure BatchByFindings (t : FileTree) (oldDir newDir : String) (b : Batch.Settings) (o : Options)
    (s : Report.Settings) : Prop where
  failure_iff : Fails (runBatch t oldDir newDir b o s) ↔ BatchFails t oldDir newDir b o.strict
  endless_iff : runBatch t oldDir newDir b o s = none ↔ Batch.collect t oldDir newDir b = none
  hazard : ∀ os, Batch.collect t oldDir newDir b = some (.ok os) →
    ∀ x ∈ os, ∀ c, x.result = .ok c → TellsHazard c
  failure_eq : ∀ (o' : Options) (s' : Report.Settings), o'.strict = o.strict →
    (runBatch t oldDir newDir b o' s').map Run.failure =
      (runBatch t oldDir newDir b o s).map Run.failure
  /-- The errors and hazards alone are listed, in their order, unless there are none. -/
  notable : ∀ os, Batch.collect t oldDir newDir b = some (.ok os) →
    ∃ r, runBatch t oldDir newDir b { o with omitNew := true } s = some r ∧
      if os.filter isNotable = [] then r.output = ""
      else Prints oldDir newDir os (os.filter isNotable) s r.output
  notable_iff : ∀ x, isNotable x = true ↔
    (∃ e, x.result = .error e) ∨ ∃ c, x.result = .ok c ∧ c.hasUnsafeFindings = true
  all : ∀ os, Batch.collect t oldDir newDir b = some (.ok os) →
    ∃ r, runBatch t oldDir newDir b { o with omitNew := false } s = some r ∧
      Prints oldDir newDir os os s r.output
  /-- The errors and hazards of a shortened report are counted as in the whole one. -/
  counts : ∀ os,
    BatchReport.errorCount ⟨oldDir, newDir, os.filter isNotable⟩ =
        BatchReport.errorCount ⟨oldDir, newDir, os⟩ ∧
      BatchReport.unsafeCount ⟨oldDir, newDir, os.filter isNotable⟩ =
        BatchReport.unsafeCount ⟨oldDir, newDir, os⟩

theorem compareByFindings (t : FileTree) (old new : String) (o : Options) (s : Report.Settings) :
    CompareByFindings t old new o s where
  failure_iff := runCompare_failure_iff t old new o s
  endless_iff := by rw [runCompare, Option.map_eq_none_iff, compareFiles_eq_none_iff]
  hazard c hfiles := by
    obtain ⟨d, e, _, _, hcmp⟩ := compareFiles_eq_ok_iff.1 hfiles
    exact tellsHazard_of_documents hcmp
  failure_eq _ s' h := runCompare_failure_eq h s s'
  silent hsafe r hr := by
    obtain ⟨result, hresult, rfl⟩ := Option.map_eq_some_iff.1 hr
    cases result with
    | error f => rfl
    | ok c => simp [afterCompare, hsafe c hresult]
  shown c hfiles hhazard := by
    rw [runCompare, runCompare, hfiles]
    refine ⟨_, rfl, ?_⟩
    simp [afterCompare, hhazard]

theorem batchByFindings (t : FileTree) (oldDir newDir : String) (b : Batch.Settings) (o : Options)
    (s : Report.Settings) : BatchByFindings t oldDir newDir b o s where
  failure_iff := runBatch_failure_iff t oldDir newDir b o s
  endless_iff := by rw [runBatch, Option.map_eq_none_iff]
  hazard os h x hx c hc := by
    obtain ⟨d, e, hcmp⟩ := exists_compareDocuments_of_mem h hx hc
    exact tellsHazard_of_documents hcmp
  failure_eq _ s' h := runBatch_failure_eq h s s'
  notable os h := by
    rw [runBatch, h]
    exact ⟨_, rfl, afterBatch_omitNew os o s⟩
  notable_iff x := isNotable_iff
  all os h := by
    rw [runBatch, h]
    exact ⟨_, rfl, afterBatch_all os o s⟩
  counts os := ⟨errorCount_filter os, unsafeCount_filter os⟩

end StorageUpgrade.Program
