import StorageUpgrade.Proofs.Csv
import StorageUpgrade.Proofs.Spelling
import StorageUpgrade.Proofs.Tables

/-!
# What the reports show

The table of a comparison has a row for every line of its views. The report on a batch lists the
outcomes in their order, in every form, and the last line of its table counts them.
-/
namespace StorageUpgrade.Report

variable {s : Settings}

section Tables

variable {headings : List String} {row : List String} {t : Table}

theorem Table.columnCount_ne_zero (h : row ∈ t.rows) (hrow : row ≠ []) : t.columnCount ≠ 0 := by
  intro hzero
  have hlength : row.length ≤ 0 := columnCount_le_iff.1 (Nat.le_of_eq hzero) row h
  exact hrow (List.length_eq_zero_iff.1 (Nat.le_zero.1 hlength))

theorem shows_rowsTable (h : headings ≠ []) (rows : List (List String)) (s : Settings) :
    (Table.mk [] (headings :: rows)).Shows s.compact (Text.lines (rowsTable headings rows s)) :=
  Table.shows_text (Table.columnCount_ne_zero (.head _) h) s

theorem shows_keyValueTable {pairs : List (String × String)} (h : pairs ≠ []) (s : Settings) :
    (Table.mk [.right] (pairs.map fun p => [p.1, p.2])).Shows s.compact
      (Text.lines (keyValueTable pairs s)) := by
  obtain ⟨p, ps, rfl⟩ := List.exists_cons_of_ne_nil h
  exact Table.shows_text (Table.columnCount_ne_zero (.head _) (List.cons_ne_nil _ _)) s

theorem shows_columnsTable {columns : List Column} {rows : List Json} (hcolumns : columns ≠ [])
    (hrows : rows ≠ []) (s : Settings) :
    (Table.mk (columns.map Column.side)
      (columns.map Column.name :: rows.map fun row => columns.map (tableCell s row))).Shows
        s.compact (Text.lines (columnsTable columns rows s)) := by
  have hnames : columns.map Column.name ≠ [] := by simpa using hcolumns
  rw [columnsTable, if_neg (by simpa using hrows)]
  exact Table.shows_text (Table.columnCount_ne_zero (.head _) hnames) s

end Tables

theorem oneLine_paint (p : Paint) {text : String} (h : Text.OneLine text) :
    Text.OneLine (s.paint p text) := by
  have hstart : Text.OneLine "\x1b[" := by decide
  have hm : Text.OneLine "m" := by decide
  have hreset : Text.OneLine "\x1b[0m" := by decide
  have hcode : Text.OneLine p.code := by cases p <;> decide
  unfold Settings.paint
  split_ifs
  · exact (((hstart.append hcode).append hm).append h).append hreset
  · exact h

namespace ComparisonReport

/-- The paths, and below them the lines of the views side by side. -/
def viewTable (r : ComparisonReport) : Table :=
  ⟨[], [r.oldPath ++ " (old)", r.newPath ++ " (new)"] :: r.bodyRows⟩

/-- What stands below the findings: the counts, the verdict and the legend. -/
def summaryLines (r : ComparisonReport) (s : Settings) : List String :=
  Text.lines (keyValueTable r.counts s) ++ Text.lines (r.verdict s) ++ [s.paint .dimmed legend]

theorem lines_table (r : ComparisonReport) (s : Settings) (h : r.comparison.isChanged = true) :
    ∃ head blocks,
      r.viewTable.ShowsRow s.compact [r.oldPath ++ " (old)", r.newPath ++ " (new)"] head ∧
      List.Forall₂ (r.viewTable.ShowsRow s.compact) r.bodyRows blocks ∧
      Text.lines (r.table s) =
        r.viewTable.opening s.compact head ++ blocks.flatten ++ r.viewTable.closing s.compact ++
          r.summaryLines s := by
  have hlegend : Text.lines (s.paint .dimmed legend) = [s.paint .dimmed legend] :=
    Text.lines_of_oneLine (oneLine_paint _ (by decide))
  have hshows : r.viewTable.Shows s.compact (Text.lines (rowsTable _ r.bodyRows s)) :=
    shows_rowsTable (List.cons_ne_nil _ _) r.bodyRows s
  rw [table, h, if_neg (by decide), Text.lines_join_eq_flatMap (List.cons_ne_nil _ _)]
  simp only [List.flatMap_cons, List.flatMap_nil, List.append_nil, hlegend, summaryLines]
  generalize Text.lines (rowsTable _ r.bodyRows s) = ls at hshows ⊢
  obtain ⟨hrows, hhead, hblocks⟩ := hshows
  cases hrows
  exact ⟨_, _, hhead, hblocks, by simp only [List.append_assoc]⟩

end ComparisonReport

namespace BatchReport

variable {oldDir newDir text : String} {os : List Outcome} {hazards errors : Nat}

/-- What is said of an outcome under a name. An error has no counts. -/
def cells (null name : String) (o : Outcome) : List String :=
  match o.result with
  | .ok c => [name, status c, toString c.summary.unsafeFindings.toNat,
      toString c.summary.dirtyBytes, c.summaryText]
  | .error e => [name, "error", null, null, e.message]

/-- The name of an outcome in a table, which may be cut off. -/
def shortened (s : Settings) (name : String) : String :=
  if s.truncate then truncate 48 name else name

def headings : List String := ["File", "Status", "Unsafe", "Dirty bytes", "Summary"]

def recordHeadings : List String := ["file", "status", "unsafe_findings", "dirty_bytes", "summary"]

def outcomeTable (s : Settings) (os : List Outcome) : Table :=
  ⟨[.left, .left, .right, .right, .left],
    headings :: os.map fun o => cells "-" (shortened s o.name) o⟩

/-- The last line of a table: the number of files, and the hazards and errors among them. -/
def tally (s : Settings) (files hazards errors : Nat) : String :=
  "Compared " ++ toString files ++ " layout file(s): " ++
    s.paint (if hazards = 0 then .green else .boldRed) (toString hazards ++ " unsafe") ++ ", " ++
    if errors = 0 then "0 errors" else s.paint .yellow (toString errors ++ " error(s)")

theorem map_tableCell_row (s : Settings) (o : Outcome) :
    columns.map (tableCell s (row o)) = cells "-" (shortened s o.name) o := by
  unfold row cells shortened tableCell
  cases o.result <;> cases s.truncate <;> rfl

theorem csvCells_row (o : Outcome) :
    csvCells (columns.map fun c => { name := c.key, key := c.key }) (row o) =
      cells "" o.name o := by
  unfold row cells
  cases o.result <;> rfl

theorem footer_eq (r : BatchReport) (s : Settings) :
    r.footer s = tally s r.outcomes.length r.unsafeCount r.errorCount := by
  unfold footer tally
  by_cases hhazards : r.unsafeCount = 0
  · simp only [hhazards, if_true]
    rfl
  · simp only [hhazards, if_false]

theorem oneLine_tally (s : Settings) (files hazards errors : Nat) :
    Text.OneLine (tally s files hazards errors) := by
  have hstart : Text.OneLine "Compared " := by decide
  have hfiles : Text.OneLine " layout file(s): " := by decide
  have hcomma : Text.OneLine ", " := by decide
  have hunsafe : Text.OneLine " unsafe" := by decide
  have herror : Text.OneLine " error(s)" := by decide
  have hlast : Text.OneLine (if errors = 0 then "0 errors"
      else s.paint .yellow (toString errors ++ " error(s)")) := by
    split_ifs
    · decide
    · exact oneLine_paint _ ((Text.oneLine_decimal errors).append herror)
  have hmiddle := oneLine_paint (s := s) (if hazards = 0 then .green else .boldRed)
    ((Text.oneLine_decimal hazards).append hunsafe)
  exact ((((hstart.append (Text.oneLine_decimal files)).append hfiles).append hmiddle).append
    hcomma).append hlast

section Counts

variable {m n : Nat} {as bs : List Char}

/-- A number in front of a word is read off a painted text. -/
theorem decimal_eq_of_paint {p : Paint} {word : String} (hne : word.toList ≠ [])
    (hword : ∀ c ∈ word.toList.head?, ¬ c.isDigit = true)
    (h : (s.paint p (toString m ++ word)).toList ++ as =
      (s.paint p (toString n ++ word)).toList ++ bs) : m = n := by
  have hhead : ∀ cs, ∀ c ∈ (word.toList ++ cs).head?, ¬ c.isDigit = true := by
    intro cs c hc
    rw [List.head?_append_of_ne_nil _ hne] at hc
    exact hword c hc
  unfold Settings.paint at h
  split_ifs at h
  · simp only [String.toList_append, List.append_assoc, List.append_cancel_left_eq] at h
    exact (Text.decimal_eq_of_append (hhead _) (hhead _) h).1
  · simp only [String.toList_append, List.append_assoc] at h
    exact (Text.decimal_eq_of_append (hhead _) (hhead _) h).1

theorem hazards_eq_of_paint
    (h : (s.paint (if m = 0 then .green else .boldRed) (toString m ++ " unsafe")).toList ++ as =
      (s.paint (if n = 0 then .green else .boldRed) (toString n ++ " unsafe")).toList ++ bs) :
    m = n := by
  by_cases hcolor : s.color = true
  · by_cases hm : m = 0 <;> by_cases hn : n = 0
    · rw [hm, hn]
    · simp [Settings.paint, hcolor, Paint.code, hm, hn] at h
    · simp [Settings.paint, hcolor, Paint.code, hm, hn] at h
    · rw [if_neg hm, if_neg hn] at h
      exact decimal_eq_of_paint (by simp) (by simp) h
  · simp only [Settings.paint, hcolor, Bool.false_eq_true, if_false, String.toList_append,
      List.append_assoc] at h
    exact (Text.decimal_eq_of_append (by simp) (by simp) h).1

theorem errors_eq_of_paint
    (h : (if m = 0 then "0 errors" else s.paint .yellow (toString m ++ " error(s)")) =
      if n = 0 then "0 errors" else s.paint .yellow (toString n ++ " error(s)")) : m = n := by
  have hnone : ∀ {k : Nat}, k ≠ 0 → "0 errors" ≠ s.paint .yellow (toString k ++ " error(s)") := by
    intro k hk heq
    have hchars := congrArg String.toList heq
    by_cases hcolor : s.color = true
    · simp [Settings.paint, hcolor] at hchars
    · have hzero : "0 errors".toList = (toString 0).toList ++ " errors".toList := by decide
      simp only [Settings.paint, hcolor, Bool.false_eq_true, if_false, String.toList_append,
        hzero] at hchars
      exact hk (Text.decimal_eq_of_append (by simp) (by simp) hchars).1.symm
  split_ifs at h with hm hn hn
  · rw [hm, hn]
  · exact absurd h (hnone hn)
  · exact absurd h.symm (hnone hm)
  · exact decimal_eq_of_paint (by simp) (by simp) (congrArg (String.toList · ++ []) h)

/-- The last line tells all three numbers. -/
theorem tally_inj {files files' hazards hazards' errors errors' : Nat} :
    tally s files hazards errors = tally s files' hazards' errors' ↔
      files = files' ∧ hazards = hazards' ∧ errors = errors' := by
  constructor
  · intro h
    have hchars := congrArg String.toList h
    simp only [tally, String.toList_append, List.append_assoc, List.append_cancel_left_eq] at hchars
    obtain ⟨rfl, hfiles⟩ := Text.decimal_eq_of_append (by simp) (by simp) hchars
    have hhazards := List.append_cancel_left hfiles
    obtain rfl := hazards_eq_of_paint hhazards
    have herrors := List.append_cancel_left (List.append_cancel_left hhazards)
    exact ⟨rfl, rfl, errors_eq_of_paint (String.toList_injective herrors)⟩
  · rintro ⟨rfl, rfl, rfl⟩
    rfl

end Counts

/-- A text lists the outcomes of a batch: in every form they come in their order, and a table ends
with the number of files, and of the hazards and errors among them. -/
structure Lists (oldDir newDir : String) (os : List Outcome) (hazards errors : Nat) (s : Settings)
    (text : String) : Prop where
  table : s.format = .table ∨ s.format = .diff → os ≠ [] →
    ∃ head blocks, (outcomeTable s os).ShowsRow s.compact headings head ∧
      List.Forall₂ (fun o block =>
        (outcomeTable s os).ShowsRow s.compact (cells "-" (shortened s o.name) o) block) os blocks ∧
      Text.lines text =
        (outcomeTable s os).opening s.compact head ++ blocks.flatten ++
          (outcomeTable s os).closing s.compact ++ [tally s os.length hazards errors]
  nothing : s.format = .table ∨ s.format = .diff → os = [] →
    Text.lines text = ["(no results)", tally s 0 hazards errors]
  json : s.format = .json →
    text.toList = Json.spell (if s.compact then .none else .lines) 0 (.object [
      ("old_dir", .string oldDir),
      ("new_dir", .string newDir),
      ("files", .array (os.map Outcome.toJson))])
  csv : s.format = .csv → ∀ records,
    Csv.Records text.toList records ↔ records = recordHeadings :: os.map fun o => cells "" o.name o

theorem lines_table (r : BatchReport) (s : Settings) :
    Text.lines (r.table s) = Text.lines (columnsTable columns (r.outcomes.map row) s) ++
      [tally s r.outcomes.length r.unsafeCount r.errorCount] := by
  have hjoin : r.table s =
      Text.join "\n" [columnsTable columns (r.outcomes.map row) s, r.footer s] := rfl
  rw [hjoin, Text.lines_join_eq_flatMap (List.cons_ne_nil _ _), footer_eq]
  simp only [List.flatMap_cons, List.flatMap_nil, List.append_nil,
    Text.lines_of_oneLine (oneLine_tally _ _ _ _)]

theorem shows_outcomes (h : os ≠ []) (s : Settings) :
    (outcomeTable s os).Shows s.compact
      (Text.lines (columnsTable columns (os.map row) s)) := by
  have hne : os.map row ≠ [] := by simpa using h
  have hshows := shows_columnsTable (by decide : columns ≠ []) hne s
  rw [List.map_map] at hshows
  have hrows : os.map ((fun row => columns.map (tableCell s row)) ∘ row) =
      os.map fun o => cells "-" (shortened s o.name) o :=
    List.map_congr_left fun o _ => map_tableCell_row s o
  rw [hrows] at hshows
  exact hshows

theorem text_eq_table {r : BatchReport} (h : s.format = .table ∨ s.format = .diff) :
    r.text s = r.table s := by
  rcases h with h | h <;> simp only [text, h]

theorem lists_text (r : BatchReport) (s : Settings) :
    Lists r.oldDir r.newDir r.outcomes r.unsafeCount r.errorCount s (r.text s) where
  table hformat hne := by
    have hshows := shows_outcomes hne s
    rw [text_eq_table hformat, lines_table]
    generalize Text.lines (columnsTable columns (r.outcomes.map row) s) = ls at hshows ⊢
    obtain ⟨hrows, hhead, hblocks⟩ := hshows
    cases hrows
    exact ⟨_, _, hhead, List.forall₂_map_left_iff.1 hblocks, rfl⟩
  nothing hformat hnil := by
    have hempty : columnsTable columns [] s = "(no results)" := rfl
    rw [text_eq_table hformat, lines_table, hnil, List.map_nil, hempty,
      Text.lines_of_oneLine (by decide)]
    rfl
  json hformat := by
    have htext : r.text s = jsonText s r.toJson := by simp only [text, hformat]
    rw [htext, jsonText]
    cases s.compact with
    | true => exact Json.toList_compact 0 r.toJson
    | false => exact Json.toList_pretty r.toJson
  csv hformat records := by
    have htext : r.text s = r.csv := by simp only [text, hformat]
    have hrows : (r.outcomes.map row).map
        (csvCells (columns.map fun c => { name := c.key, key := c.key })) =
          r.outcomes.map fun o => cells "" o.name o := by
      rw [List.map_map]
      exact List.map_congr_left fun o _ => csvCells_row o
    have hcolumns :
        2 ≤ (columns.map fun c => ({ name := c.key, key := c.key } : Column)).length := by
      decide
    have hiff := records_csvText_iff (r.outcomes.map row) hcolumns (.inl rfl) records
    rw [List.append_nil, hrows] at hiff
    rw [htext]
    exact hiff

/-- There is always something to print. -/
theorem text_ne_empty (r : BatchReport) (s : Settings) : r.text s ≠ "" := by
  have hlists := lists_text r s
  have htable : r.table s ≠ "" := by
    simp [table, String.append_eq_empty_iff]
  intro hempty
  cases hformat : s.format with
  | table =>
    rw [text_eq_table (.inl hformat)] at hempty
    exact htable hempty
  | diff =>
    rw [text_eq_table (.inr hformat)] at hempty
    exact htable hempty
  | json =>
    have hchars := hlists.json hformat
    rw [hempty] at hchars
    cases hchars
  | csv =>
    have hrecords := (hlists.csv hformat []).1
    rw [hempty] at hrecords
    cases hrecords .nil

end BatchReport

end StorageUpgrade.Report
