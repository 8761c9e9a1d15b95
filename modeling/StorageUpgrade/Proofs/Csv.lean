import Mathlib.Data.List.Forall2
import StorageUpgrade.Program
import StorageUpgrade.Proofs.Pieces

/-!
# CSV texts read back

The grammar of comma-separated values relates a text to what its beginning stands for and to the
rest. It does not mention how texts are written. No text has two readings, and what is written for
two columns or more has the cells for its reading, whatever characters they hold.
-/
namespace StorageUpgrade

namespace Report

namespace Csv

/-- The character has no meaning of its own outside quotes. -/
def IsPlain (c : Char) : Prop := c ≠ ',' ∧ c ≠ '\n' ∧ c ≠ '\r' ∧ c ≠ '"'

instance (c : Char) : Decidable (IsPlain c) := inferInstanceAs (Decidable (_ ∧ _))

/-- A text that can stand in a field without quotes. -/
def AllPlain (cs : List Char) : Prop := ∀ c ∈ cs, IsPlain c

instance (cs : List Char) : Decidable (AllPlain cs) := List.decidableBAll IsPlain cs

theorem allPlain_cons {c : Char} {cs : List Char} : AllPlain (c :: cs) ↔ IsPlain c ∧ AllPlain cs :=
  List.forall_mem_cons

theorem allPlain_append {cs ds : List Char} :
    AllPlain (cs ++ ds) ↔ AllPlain cs ∧ AllPlain ds :=
  List.forall_mem_append

/-- What is behind an opening quote, the characters it stands for up to the closing one, and the
rest. A quote inside a field is doubled. -/
inductive Quoted : List Char → List Char → List Char → Prop where
  | close {rest} : Quoted ('"' :: rest) [] rest
  | quote {t cs rest} : Quoted t cs rest → Quoted ('"' :: '"' :: t) ('"' :: cs) rest
  | other {c t cs rest} : c ≠ '"' → Quoted t cs rest → Quoted (c :: t) (c :: cs) rest

/-- The text begins with a field of this content, and the rest follows. -/
inductive Field : List Char → String → List Char → Prop where
  | plain {s rest} : AllPlain s.toList → Field (s.toList ++ rest) s rest
  | quoted {t s rest} : Quoted t s.toList rest → Field ('"' :: t) s rest

/-- The text begins with these fields and commas between them, and the rest follows. -/
inductive Record : List Char → List String → List Char → Prop where
  | last {t s rest} : Field t s rest → Record t [s] rest
  | comma {t s u fields rest} :
    Field t s (',' :: u) → Record u fields rest → Record t (s :: fields) rest

/-- The text consists of records. A line feed ends a record, except that the last one may end with
the text. -/
inductive Records : List Char → List (List String) → Prop where
  | nil : Records [] []
  | last {t fields} : t ≠ [] → Record t fields [] → Records t [fields]
  | line {t fields u records} :
    Record t fields ('\n' :: u) → Records u records → Records t (fields :: records)

variable {t u rest rest' : List Char} {s s' : String} {fields fields' : List String}
variable {records records' : List (List String)}

/-- Nothing follows, or a separator does. -/
def Ends (rest : List Char) : Prop := ∀ c ∈ rest.head?, c = ',' ∨ c = '\n'

/-- Nothing follows, or the next record does. -/
def EndsLine (rest : List Char) : Prop := ∀ c ∈ rest.head?, c = '\n'

theorem ends_comma (u : List Char) : Ends (',' :: u) := by
  intro c hc
  cases hc
  exact .inl rfl

theorem not_ends_quote (u : List Char) : ¬ Ends ('"' :: u) := by
  intro h
  exact absurd (h '"' rfl) (by decide)

theorem endsLine_nil : EndsLine [] := nofun

theorem endsLine_line (u : List Char) : EndsLine ('\n' :: u) := by
  intro c hc
  cases hc
  rfl

theorem not_endsLine_comma (u : List Char) : ¬ EndsLine (',' :: u) := by
  intro h
  exact absurd (h ',' rfl) (by decide)

theorem EndsLine.ends (h : EndsLine rest) : Ends rest := fun c hc => .inr (h c hc)

theorem Ends.not_plain (h : Ends rest) : ∀ c ∈ rest.head?, ¬ IsPlain c := by
  rintro c hc ⟨hcomma, hfeed, _⟩
  exact (h c hc).elim hcomma hfeed

/-- Two quotes in a row could close the field and begin the rest, but no separator is a quote. -/
theorem Quoted.unique {cs cs' : List Char} (h : Quoted t cs rest) (h' : Quoted t cs' rest')
    (hrest : Ends rest) (hrest' : Ends rest') : cs = cs' ∧ rest = rest' := by
  induction h generalizing cs' with
  | close =>
    cases h' with
    | close => exact ⟨rfl, rfl⟩
    | quote _ => exact absurd hrest (not_ends_quote _)
    | other hc _ => exact absurd rfl hc
  | quote _ ih =>
    cases h' with
    | close => exact absurd hrest' (not_ends_quote _)
    | quote h' =>
      obtain ⟨rfl, rfl⟩ := ih h' hrest
      exact ⟨rfl, rfl⟩
    | other hc _ => exact absurd rfl hc
  | other hc _ ih =>
    cases h' with
    | close => exact absurd rfl hc
    | quote _ => exact absurd rfl hc
    | other _ h' =>
      obtain ⟨rfl, rfl⟩ := ih h' hrest
      exact ⟨rfl, rfl⟩

/-- No plain field begins with a quote. -/
theorem not_quoted_of_plain (hs : AllPlain s.toList) (hrest : Ends rest) :
    s.toList ++ rest ≠ '"' :: t := by
  intro heq
  cases hchars : s.toList with
  | nil =>
    rw [hchars, List.nil_append] at heq
    exact not_ends_quote t (heq ▸ hrest)
  | cons c cs =>
    rw [hchars] at heq hs
    obtain ⟨rfl, _⟩ := List.cons.inj heq
    exact (hs _ (.head _)).2.2.2 rfl

theorem Field.unique (h : Field t s rest) (h' : Field t s' rest') (hrest : Ends rest)
    (hrest' : Ends rest') : s = s' ∧ rest = rest' := by
  cases h with
  | plain hs =>
    generalize htext : s.toList ++ rest = t at h'
    cases h' with
    | plain hs' =>
      obtain ⟨hchars, rfl⟩ :=
        Text.run_eq_of_append hs hs' hrest.not_plain hrest'.not_plain htext
      exact ⟨String.toList_injective hchars, rfl⟩
    | quoted _ => exact absurd htext (not_quoted_of_plain hs hrest)
  | quoted hq =>
    generalize htext : '"' :: _ = t at h'
    cases h' with
    | plain hs' => exact absurd htext.symm (not_quoted_of_plain hs' hrest')
    | quoted hq' =>
      obtain ⟨_, rfl⟩ := List.cons.inj htext
      obtain ⟨hchars, rfl⟩ := hq.unique hq' hrest hrest'
      exact ⟨String.toList_injective hchars, rfl⟩

/-- A field that ends with the record is not one that ends at a comma, so the readings agree field by
field. -/
theorem Record.unique (h : Record t fields rest) (h' : Record t fields' rest')
    (hrest : EndsLine rest) (hrest' : EndsLine rest') : fields = fields' ∧ rest = rest' := by
  induction h generalizing fields' with
  | last hf =>
    cases h' with
    | last hf' =>
      obtain ⟨rfl, rfl⟩ := hf.unique hf' hrest.ends hrest'.ends
      exact ⟨rfl, rfl⟩
    | comma hf' _ =>
      obtain ⟨_, rfl⟩ := hf.unique hf' hrest.ends (ends_comma _)
      exact absurd hrest (not_endsLine_comma _)
  | comma hf _ ih =>
    cases h' with
    | last hf' =>
      obtain ⟨_, rfl⟩ := hf.unique hf' (ends_comma _) hrest'.ends
      exact absurd hrest' (not_endsLine_comma _)
    | comma hf' hr' =>
      obtain ⟨rfl, heq⟩ := hf.unique hf' (ends_comma _) (ends_comma _)
      obtain ⟨_, rfl⟩ := List.cons.inj heq
      obtain ⟨rfl, rfl⟩ := ih hr' hrest
      exact ⟨rfl, rfl⟩

/-- Behind nothing there is nothing. -/
theorem Field.rest_eq_nil (h : Field t s rest) (ht : t = []) : rest = [] := by
  cases h with
  | plain _ => exact (List.append_eq_nil_iff.1 ht).2
  | quoted _ => cases ht

theorem Record.rest_eq_nil (h : Record t fields rest) (ht : t = []) : rest = [] := by
  cases h with
  | last hf => exact hf.rest_eq_nil ht
  | comma hf _ => cases hf.rest_eq_nil ht

/-- A text is read in one way only. -/
theorem Records.unique (h : Records t records) (h' : Records t records') : records = records' := by
  induction h generalizing records' with
  | nil =>
    cases h' with
    | nil => rfl
    | last ht' _ => exact absurd rfl ht'
    | line hr' _ => cases hr'.rest_eq_nil rfl
  | last ht hr =>
    cases h' with
    | nil => exact absurd rfl ht
    | last _ hr' => rw [(hr.unique hr' endsLine_nil endsLine_nil).1]
    | line hr' _ => exact nomatch (hr.unique hr' endsLine_nil (endsLine_line _)).2
  | line hr _ ih =>
    cases h' with
    | nil => cases hr.rest_eq_nil rfl
    | last _ hr' => exact nomatch (hr.unique hr' (endsLine_line _) endsLine_nil).2
    | line hr' h' =>
      obtain ⟨rfl, heq⟩ := hr.unique hr' (endsLine_line _) (endsLine_line _)
      obtain ⟨_, rfl⟩ := List.cons.inj heq
      rw [ih h']

theorem needsQuotes_iff {cs : List Char} : needsQuotes cs = true ↔ ¬ AllPlain cs := by
  simp only [needsQuotes, List.any_eq_true, Bool.or_eq_true, decide_eq_true_eq, AllPlain, IsPlain]
  push Not
  apply exists_congr
  intro c
  apply and_congr_right
  intro _
  tauto

theorem quoted_doubleQuotes (cs rest : List Char) :
    Quoted (doubleQuotes cs ++ '"' :: rest) cs rest := by
  induction cs with
  | nil => exact .close
  | cons c cs ih =>
    rw [doubleQuotes, List.flatMap_cons, ← doubleQuotes]
    split_ifs with hc
    · subst hc
      exact .quote ih
    · exact .other hc ih

/-- What is written for a text is a field with this text. -/
theorem field_field (s : String) (rest : List Char) : Field ((field s).toList ++ rest) s rest := by
  unfold field
  split_ifs with h
  · rw [String.toList_ofList, List.cons_append, List.cons_append, List.append_assoc]
    exact .quoted (quoted_doubleQuotes s.toList rest)
  · rw [needsQuotes_iff, not_not] at h
    exact .plain h

theorem record_record (hne : fields ≠ []) (rest : List Char) :
    Record ((record fields).toList ++ rest) fields rest := by
  unfold record
  induction fields with
  | nil => exact absurd rfl hne
  | cons s fields ih =>
    cases fields with
    | nil => exact .last (field_field s rest)
    | cons s' fields =>
      rw [List.map_cons, List.map_cons, Text.toList_join_cons_cons, ← List.map_cons,
        List.append_assoc, List.append_assoc]
      exact .comma (field_field s _) (ih (List.cons_ne_nil _ _))

/-- With two fields there is a comma at least. -/
theorem record_ne_nil (h : 2 ≤ fields.length) : (record fields).toList ≠ [] := by
  match fields, h with
  | s :: s' :: fields, _ => simp [record]

/-- Records with two fields or more are found again, with or without a line feed at the end. -/
theorem records_join {ending : List Char} (hending : ending = [] ∨ ending = ['\n'])
    (h : ∀ fs ∈ fields :: records, 2 ≤ fs.length) :
    Records ((Text.join "\n" ((fields :: records).map record)).toList ++ ending)
      (fields :: records) := by
  have hrecord : ∀ fs, 2 ≤ fs.length → ∀ rest, Record ((record fs).toList ++ rest) fs rest :=
    fun fs hlen => record_record (List.ne_nil_of_length_pos (by omega))
  induction records generalizing fields with
  | nil =>
    have hlen : 2 ≤ fields.length := h fields (.head _)
    rcases hending with rfl | rfl
    · apply Records.last _ (hrecord fields hlen [])
      simpa using record_ne_nil hlen
    · exact .line (hrecord fields hlen ['\n']) .nil
  | cons next records ih =>
    obtain ⟨hlen, hnext⟩ := List.forall_mem_cons.1 h
    rw [List.map_cons, List.map_cons, Text.toList_join_cons_cons, ← List.map_cons,
      List.append_assoc, List.append_assoc]
    exact .line (hrecord fields hlen _) (ih hnext)

theorem isPlain_of_isDigit {c : Char} (h : c.isDigit = true) : IsPlain c := by
  unfold IsPlain
  refine ⟨?_, ?_, ?_, ?_⟩ <;> (rintro rfl; contradiction)

theorem allPlain_digits (n : Nat) : AllPlain (Nat.toDigits 10 n) :=
  fun _ hc => isPlain_of_isDigit (isDigit_of_mem_decimal hc)

theorem allPlain_decimal (n : Nat) : AllPlain (toString n).toList := by
  rw [toList_toString]
  exact allPlain_digits n

theorem allPlain_integer (i : Int) : AllPlain (toString i).toList := by
  cases i with
  | ofNat n => exact allPlain_decimal n
  | negSucc n =>
    have htext : toString (Int.negSucc n) = "-" ++ toString (n + 1) := rfl
    rw [htext, String.toList_append, allPlain_append]
    exact ⟨by decide, allPlain_decimal (n + 1)⟩

theorem allPlain_decimalChars (d : Json.Float64.Decimal) :
    AllPlain (Json.Float64.decimalChars d) := by
  have hdigits := allPlain_digits d.digits
  have hzeros : ∀ n, AllPlain (List.replicate n '0') := by
    intro n c hc
    rw [List.eq_of_mem_replicate hc]
    decide
  have htake : ∀ n, AllPlain ((Nat.toDigits 10 d.digits).take n) :=
    fun n c hc => hdigits c (List.mem_of_mem_take hc)
  have hdrop : ∀ n, AllPlain ((Nat.toDigits 10 d.digits).drop n) :=
    fun n c hc => hdigits c (List.mem_of_mem_drop hc)
  have hmarks : IsPlain '.' ∧ IsPlain '0' ∧ IsPlain 'e' ∧ AllPlain [] := by decide
  unfold Json.Float64.decimalChars
  simp only
  split_ifs <;> simp only [allPlain_append, allPlain_cons, hmarks, hdigits, hzeros, htake, hdrop,
    allPlain_integer, and_self]

theorem allPlain_number (n : Json.Number) : AllPlain n.text.toList := by
  cases n with
  | natural n => exact allPlain_decimal n.toNat
  | negative n =>
    rw [Json.Number.text, String.toList_append, allPlain_append]
    exact ⟨by decide, allPlain_decimal n⟩
  | float x =>
    rw [Json.Number.text, Json.Float64.text, String.toList_ofList, allPlain_append]
    constructor
    · split_ifs <;> decide
    · split_ifs
      · decide
      · exact allPlain_decimalChars x.shortest

/-- Only texts ever need quotes: all other cells stand as they are. -/
theorem field_cellText {v : Json} (h : ∀ s, v ≠ .string s) :
    field (cellText "" v) = cellText "" v := by
  have hplain : AllPlain (cellText "" v).toList := by
    cases v with
    | null => decide
    | bool b => cases b <;> decide
    | number n => exact allPlain_number n
    | string s => exact absurd rfl (h s)
    | array vs =>
      simp only [cellText, String.toList_append, allPlain_append]
      exact ⟨⟨by decide, allPlain_decimal _⟩, by decide⟩
    | object ms =>
      simp only [cellText, String.toList_append, allPlain_append]
      exact ⟨⟨by decide, allPlain_decimal _⟩, by decide⟩
  rw [field, if_neg]
  rwa [needsQuotes_iff, not_not]

end Csv

/-- The text that a cell shows for a member of a row. -/
inductive ShownAs : Option Json → String → Prop where
  | missing : ShownAs none ""
  | null : ShownAs (some .null) ""
  | true : ShownAs (some (.bool true)) "true"
  | false : ShownAs (some (.bool false)) "false"
  | number (n : Json.Number) : ShownAs (some (.number n)) n.text
  | string (s : String) : ShownAs (some (.string s)) s
  | array (vs : List Json) : ShownAs (some (.array vs)) ("[" ++ toString vs.length ++ " items]")
  | object (ms : List (String × Json)) :
    ShownAs (some (.object ms)) ("\x7b" ++ toString ms.length ++ " fields\x7d")

theorem shownAs_cellText (c : Column) (row : Json) :
    ShownAs (row.get? c.key) (cellText "" (c.value row)) := by
  unfold Column.value
  match row.get? c.key with
  | none => exact .missing
  | some .null => exact .null
  | some (.bool true) => exact .true
  | some (.bool false) => exact .false
  | some (.number n) => exact .number n
  | some (.string s) => exact .string s
  | some (.array vs) => exact .array vs
  | some (.object ms) => exact .object ms

theorem ShownAs.unique {v : Option Json} {s s' : String} (h : ShownAs v s) (h' : ShownAs v s') :
    s = s' := by
  cases h <;> cases h' <;> rfl

/-- Every column has a cell that shows its member of the row. -/
def ShowsRow (columns : List Column) (row : Json) (cells : List String) : Prop :=
  List.Forall₂ (fun c cell => ShownAs (row.get? c.key) cell) columns cells

theorem showsRow_csvCells (columns : List Column) (row : Json) :
    ShowsRow columns row (csvCells columns row) := by
  unfold ShowsRow csvCells
  rw [List.forall₂_map_right_iff, List.forall₂_same]
  exact fun c _ => shownAs_cellText c row

theorem rightUnique_showsRow (columns : List Column) : Relator.RightUnique (ShowsRow columns) := by
  intro row cells cells' h h'
  have hcell : Relator.RightUnique fun (c : Column) cell => ShownAs (row.get? c.key) cell :=
    fun _ _ _ hs hs' => hs.unique hs'
  exact hcell.forall₂ h h'

/-- The text of a table with two columns or more has one reading, with or without a line feed at the
end. -/
theorem records_csvText_iff {columns : List Column} (rows : List Json) {ending : List Char}
    (hcolumns : 2 ≤ columns.length) (hending : ending = [] ∨ ending = ['\n'])
    (records : List (List String)) :
    Csv.Records ((csvText columns rows).toList ++ ending) records ↔
      records = columns.map Column.name :: rows.map (csvCells columns) := by
  have hreads : Csv.Records ((csvText columns rows).toList ++ ending)
      (columns.map Column.name :: rows.map (csvCells columns)) := by
    have hjoin := @Csv.records_join (columns.map Column.name) (rows.map (csvCells columns)) ending
      hending <| by
        intro fields hfields
        rcases List.mem_cons.1 hfields with rfl | hfields
        · simpa using hcolumns
        · obtain ⟨row, _, rfl⟩ := List.mem_map.1 hfields
          simpa [csvCells] using hcolumns
    rwa [List.map_cons, List.map_map] at hjoin
  exact ⟨fun h => h.unique hreads, fun h => h ▸ hreads⟩

namespace ComparisonReport

def headings : List String :=
  ["classification", "slot", "offset", "label", "type", "old_label", "old_type", "dirty_bytes"]

/-- What the record of a finding holds, in the order of the headings. -/
def cells (f : Finding) : List String := [
  f.classification.name, toString f.slot, toString f.offset.toNat, f.label, f.typeLabel,
  (f.old.map View.label).getD "", (f.old.map View.typeLabel).getD "",
  (f.dirtyBytes.map toString).getD ""]

theorem csvCells_row (f : Finding) : csvCells columns (row f) = cells f := by
  unfold row cells
  cases f.dirtyBytes <;> rfl

theorem records_csv_iff (r : ComparisonReport) {ending : List Char}
    (hending : ending = [] ∨ ending = ['\n']) (records : List (List String)) :
    Csv.Records (r.csv.toList ++ ending) records ↔
      records = headings :: r.comparison.findings.map cells := by
  have hcolumns : columns.map Column.name = headings := by decide
  have hrows : (r.comparison.findings.map row).map (csvCells columns) =
      r.comparison.findings.map cells := by
    rw [List.map_map]
    exact List.map_congr_left fun f _ => csvCells_row f
  rw [csv, records_csvText_iff _ (by decide) hending, hcolumns, hrows]

end ComparisonReport

end Report

open Report

/-- The program prints the records of a comparison and a line feed. -/
theorem Program.output_runCompare {t : FileTree} {old new : String} {c : Comparison} {o : Options}
    {s : Settings} (hcmp : compareFiles t old new = some (.ok c)) (hs : s.format = .csv)
    (hshown : (o.omitNew && !c.hasUnsafeFindings) = false) :
    ∃ r, runCompare t old new o s = some r ∧
      r.output = (ComparisonReport.mk old new c).csv ++ "\n" := by
  have htext : comparisonText ⟨old, new, c⟩ o.context s = (ComparisonReport.mk old new c).csv := by
    simp only [comparisonText, hs, ComparisonReport.text]
  have hne : (ComparisonReport.mk old new c).csv.isEmpty = false := by
    rw [Bool.eq_false_iff, ne_eq, String.isEmpty_iff]
    intro hempty
    have hnil := ((ComparisonReport.mk old new c).records_csv_iff (.inl rfl) []).1
    rw [hempty] at hnil
    cases hnil .nil
  refine ⟨afterCompare old new o s (.ok c), by rw [runCompare, hcmp, Option.map_some], ?_⟩
  simp only [afterCompare, hshown, htext, printed, hne, Bool.false_eq_true, if_false]

/-- Whatever the cells hold, a CSV text with two columns or more reads as the headings and a record
for each row, and as nothing else. So does the report on a comparison, with a record for every
finding, and what the program prints of it. -/
theorem csv_read_back :
    (∀ (columns : List Column) (rows : List Json), 2 ≤ columns.length →
      ∃ cells, List.Forall₂ (ShowsRow columns) rows cells ∧
        ∀ records, Csv.Records (csvText columns rows).toList records ↔
          records = columns.map Column.name :: cells) ∧
      (∀ (r : ComparisonReport) (records : List (List String)),
        Csv.Records r.csv.toList records ↔
          records = ComparisonReport.headings ::
            r.comparison.findings.map ComparisonReport.cells) ∧
      ∀ t old new c (o : Program.Options) (s : Settings),
        Program.compareFiles t old new = some (.ok c) → s.format = .csv →
        (o.omitNew && !c.hasUnsafeFindings) = false →
        ∃ r, Program.runCompare t old new o s = some r ∧
          ∀ records, Csv.Records r.output.toList records ↔
            records = ComparisonReport.headings :: c.findings.map ComparisonReport.cells := by
  refine ⟨fun columns rows hcolumns => ?_, fun r records => ?_, ?_⟩
  · refine ⟨rows.map (csvCells columns), ?_, fun records => ?_⟩
    · rw [List.forall₂_map_right_iff, List.forall₂_same]
      exact fun row _ => showsRow_csvCells columns row
    · rw [← records_csvText_iff rows hcolumns (.inl rfl), List.append_nil]
  · rw [← r.records_csv_iff (.inl rfl), List.append_nil]
  · intro t old new c o s hcmp hs hshown
    obtain ⟨run, hrun, houtput⟩ := Program.output_runCompare hcmp hs hshown
    refine ⟨run, hrun, fun records => ?_⟩
    rw [houtput, String.toList_append]
    exact (ComparisonReport.mk old new c).records_csv_iff (.inr rfl) records

/-- A label with every mark that has a meaning in the text, in a row without a kind. -/
theorem csv_read_back_label :
    ∀ records, Csv.Records "Label,Kind\n\"a,\"\"b\"\"\r\n\",".toList records ↔
      records = [["Label", "Kind"], ["a,\"b\"\r\n", ""]] := by
  have htext : csvText [⟨"Label", "label", none, .left⟩, ⟨"Kind", "kind", none, .left⟩]
      [.object [("label", .string "a,\"b\"\r\n")]] =
        "Label,Kind\n\"a,\"\"b\"\"\r\n\"," := by
    decide +kernel
  obtain ⟨cells, hshows, hreads⟩ := csv_read_back.1
    [⟨"Label", "label", none, .left⟩, ⟨"Kind", "kind", none, .left⟩]
    [.object [("label", .string "a,\"b\"\r\n")]] (by decide)
  have hcells : cells = [["a,\"b\"\r\n", ""]] := by
    apply (rightUnique_showsRow _).forall₂ hshows
    exact .cons (showsRow_csvCells _ _) .nil
  rwa [htext, hcells] at hreads

end StorageUpgrade
