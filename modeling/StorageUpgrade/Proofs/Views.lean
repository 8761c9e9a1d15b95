import StorageUpgrade.Proofs.Decimal
import StorageUpgrade.Proofs.Duality
import StorageUpgrade.Proofs.NoChange
import StorageUpgrade.Proofs.Pieces
import StorageUpgrade.Proofs.Reports

/-!
# The views, line by line

Both views have a line for every finding, provided that no label holds a line end. The two lines of
a finding are equal when it is unchanged and differ otherwise: the mark of the new line is not that
of the old one, or there is no old line at all. So the two views are equal when nothing changed.
-/
namespace StorageUpgrade

namespace Layout

variable {l k : Layout} {i j : Item}

/-- No label has a line end in it. -/
def OneLine (l : Layout) : Prop := ∀ i ∈ l, Text.OneLine i.label ∧ Text.OneLine i.type.label

instance (l : Layout) : Decidable l.OneLine := inferInstanceAs (Decidable (∀ i ∈ l, _))

/-- Slot and offset of a variable say where it starts. -/
def Placed (l : Layout) : Prop :=
  ∀ i ∈ l, i.start = i.slot * Position.slotSize + i.offset.toNat ∧
    i.offset.toNat < Position.slotSize

instance (l : Layout) : Decidable l.Placed := inferInstanceAs (Decidable (∀ i ∈ l, _))

/-- Variables that start together have the same slot and offset. -/
theorem Placed.place_eq (hl : l.Placed) (hk : k.Placed) (hi : i ∈ l) (hj : j ∈ k)
    (h : i.start = j.start) : i.slot = j.slot ∧ i.offset = j.offset := by
  obtain ⟨histart, hioffset⟩ := hl i hi
  obtain ⟨hjstart, hjoffset⟩ := hk j hj
  rw [← UInt64.toNat_inj]
  unfold Position.slotSize at *
  lia

end Layout

theorem replacedOutcome_ne_dirtyByteRun {old : Layout} {o n : Item} :
    replacedOutcome old o n ≠ .dirtyByteRun := by
  rw [← ofReplacement_eq]
  exact (ofReplacement_ne n o old).1

namespace Views

variable {marker label typeLabel : String} {slot : Position} {offset : UInt64}
variable {old new : Layout} {o n : Item} {f : Finding} {fs : List Finding}

theorem oneLine_placeText (slot : Position) (offset : UInt64) :
    Text.OneLine (placeText slot offset) := by
  unfold placeText
  split_ifs
  · exact (Text.oneLine_decimal slot).padRight slotWidth
  · have hcolon : Text.OneLine ": " := by decide
    exact ((Text.oneLine_decimal slot).append hcolon).append
      ((Text.oneLine_decimal offset.toNat).padRight offsetWidth)

theorem oneLine_line (hmarker : Text.OneLine marker) (hlabel : Text.OneLine label)
    (htype : Text.OneLine typeLabel) : Text.OneLine (line marker slot offset label typeLabel) := by
  have htwo : Text.OneLine "  " := by decide
  have hthree : Text.OneLine "   " := by decide
  have hfour : Text.OneLine "    " := by decide
  unfold line
  apply Text.OneLine.append _ htype
  apply Text.OneLine.append _ hfour
  apply Text.OneLine.append _ (hlabel.padRight labelWidth)
  apply Text.OneLine.append _ hthree
  exact (hmarker.append htwo).append (oneLine_placeText slot offset)

theorem oneLine_marker (k : Classification) : Text.OneLine k.marker := by
  cases k <;> decide

theorem oneLine_dirtyLine (v : View) : Text.OneLine (dirtyLine v) := by
  have hwords : Text.OneLine " dirty byte" := by decide
  unfold dirtyLine
  apply oneLine_line
  · decide
  · exact ((Text.oneLine_decimal v.width).append hwords).append (Text.oneLine_plural v.width)
  · decide

/-- A line begins with its mark. -/
theorem head?_line (hmarker : marker.toList ≠ []) :
    (line marker slot offset label typeLabel).toList.head? = marker.toList.head? := by
  unfold line
  cases h : marker.toList with
  | nil => exact absurd h hmarker
  | cons c cs => simp [h]

theorem marker_ne_nil (k : Classification) : k.marker.toList ≠ [] := by
  cases k <;> decide

/-- The new view has the variable of the finding behind the mark of the outcome. -/
theorem newLine_of_new {k : Classification} (s : Position) (old : Option View) (v : View)
    (hremoved : k ≠ .removed) (hrun : k ≠ .dirtyByteRun) :
    newLine ⟨k, s, old, some v⟩ = itemLine k.marker v := by
  cases k with
  | removed => exact absurd rfl hremoved
  | dirtyByteRun => exact absurd rfl hrun
  | _ => rfl

/-- No finding of labels without line ends needs a second line. -/
theorem oneLine_of_listed (ho : old.OneLine) (hn : new.OneLine) (hf : Listed old new f) :
    Text.OneLine (oldLine f) ∧ Text.OneLine (newLine f) := by
  have hitem : ∀ {l : Layout} {i : Item} (k : Classification), l.OneLine → i ∈ l →
      Text.OneLine (itemLine k.marker (.ofItem i)) := by
    intro l i k hl hi
    exact oneLine_line (oneLine_marker k) (hl i hi).1 (hl i hi).2
  have hblank : Text.OneLine "" := by decide
  cases hf with
  | @replaced o n ho' hn' h =>
    have hrun : replacedOutcome old o n ≠ .dirtyByteRun := replacedOutcome_ne_dirtyByteRun
    refine ⟨hitem .unchanged ho ho', ?_⟩
    rw [newLine_of_new _ _ _ replacedOutcome_ne_removed hrun]
    exact hitem _ hn hn'
  | removed ho' h => exact ⟨hitem .unchanged ho ho', oneLine_marker .removed⟩
  | @fresh n hn' h =>
    refine ⟨hblank, ?_⟩
    rw [newLine_of_new _ _ _ freshOutcome_ne.2.1 freshOutcome_ne.2.2]
    exact hitem _ hn hn'
  | dirtyRun hs ho' hos hstop => exact ⟨hblank, oneLine_dirtyLine _⟩

/-- Only what is unchanged and dirty bytes have a blank mark. -/
theorem head?_marker_ne {k : Classification} (hunchanged : k ≠ .unchanged)
    (hrun : k ≠ .dirtyByteRun) : k.marker.toList.head? ≠ some ' ' := by
  cases k with
  | unchanged => exact absurd rfl hunchanged
  | dirtyByteRun => exact absurd rfl hrun
  | _ => decide

theorem head?_itemLine_blank (v : View) :
    (itemLine Classification.blankMarker v).toList.head? = some ' ' :=
  head?_line (by decide)

theorem line_ne_empty (k : Classification) (slot : Position) (offset : UInt64)
    (label typeLabel : String) : line k.marker slot offset label typeLabel ≠ "" := by
  intro heq
  have hhead : (line k.marker slot offset label typeLabel).toList.head? = k.marker.toList.head? :=
    head?_line (marker_ne_nil k)
  rw [heq] at hhead
  exact marker_ne_nil k (List.head?_eq_none_iff.1 hhead.symm)

/-- The line of an old variable and that of a new one in its place. -/
theorem itemLine_eq_iff (hop : old.Placed) (hnp : new.Placed) (ho : o ∈ old) (hn : n ∈ new)
    (h : o.start = n.start) :
    itemLine Classification.blankMarker (.ofItem o) =
        itemLine (replacedOutcome old o n).marker (.ofItem n) ↔
      replacedOutcome old o n = .unchanged := by
  constructor
  · intro heq
    by_contra hchange
    have hold := head?_itemLine_blank (.ofItem o)
    rw [heq] at hold
    exact head?_marker_ne hchange replacedOutcome_ne_dirtyByteRun
      ((head?_line (marker_ne_nil _)).symm.trans hold)
  · intro hsame
    obtain ⟨hlabel, htype, _⟩ := replacedOutcome_eq_unchanged_iff.1 hsame
    obtain ⟨hslot, hoffset⟩ := hop.place_eq hnp ho hn h
    rw [hsame]
    simp only [itemLine, View.ofItem, hlabel, htype, hslot, hoffset]
    rfl

/-- The two lines of a finding are equal when it tells of no change. -/
theorem oldLine_eq_newLine_iff (hop : old.Placed) (hnp : new.Placed) (hf : Listed old new f) :
    oldLine f = newLine f ↔ f.classification = .unchanged := by
  cases hf with
  | @replaced o n ho hn h =>
    rw [newLine_of_new _ _ _ replacedOutcome_ne_removed replacedOutcome_ne_dirtyByteRun]
    exact itemLine_eq_iff hop hnp ho hn h
  | @removed o ho h =>
    apply iff_of_false
    · intro heq
      have hmark : itemLine Classification.blankMarker (.ofItem o) = "🪦" := heq
      have hold := head?_itemLine_blank (.ofItem o)
      rw [hmark] at hold
      contradiction
    · nofun
  | @fresh n hn h =>
    rw [newLine_of_new _ _ _ freshOutcome_ne.2.1 freshOutcome_ne.2.2]
    exact iff_of_false (line_ne_empty _ _ _ _ _).symm freshOutcome_ne.1
  | dirtyRun hs ho hos hstop =>
    exact iff_of_false (line_ne_empty .dirtyByteRun _ _ _ _).symm nofun

theorem lines_ofFindings (hne : fs ≠ [])
    (h : ∀ f ∈ fs, Text.OneLine (oldLine f) ∧ Text.OneLine (newLine f)) :
    Text.lines (ofFindings fs).old = fs.map oldLine ∧
      Text.lines (ofFindings fs).new = fs.map newLine := by
  constructor
  · apply Text.lines_join
    · simpa using hne
    · exact List.forall_mem_map.2 fun f hf => (h f hf).1
  · apply Text.lines_join
    · simpa using hne
    · exact List.forall_mem_map.2 fun f hf => (h f hf).2

/-- The views show the findings line by line, and their lines differ where the findings tell of a
change. -/
structure Shows (v : Views) (fs : List Finding) : Prop where
  old_lines : Text.lines v.old = fs.map fun f => (ofFindings [f]).old
  new_lines : Text.lines v.new = fs.map fun f => (ofFindings [f]).new
  line_eq_iff : ∀ (i : Nat) (h : i < fs.length),
    (Text.lines v.old)[i]? = (Text.lines v.new)[i]? ↔ fs[i].classification = .unchanged
  eq_iff : v.old = v.new ↔ ∀ f ∈ fs, f.classification = .unchanged

theorem shows_ofFindings (hne : fs ≠ [])
    (hline : ∀ f ∈ fs, Text.OneLine (oldLine f) ∧ Text.OneLine (newLine f))
    (heq : ∀ f ∈ fs, oldLine f = newLine f ↔ f.classification = .unchanged) :
    (ofFindings fs).Shows fs := by
  obtain ⟨hold, hnew⟩ := lines_ofFindings hne hline
  refine ⟨hold, hnew, fun i hi => ?_, fun hviews f hf => ?_, fun hall => ?_⟩
  · rw [hold, hnew, List.getElem?_map, List.getElem?_map, List.getElem?_eq_getElem hi]
    simpa using heq fs[i] (List.getElem_mem hi)
  · rw [hviews, hnew] at hold
    exact (heq f hf).1 (List.map_inj_left.1 hold f hf).symm
  · have hlines : fs.map oldLine = fs.map newLine :=
      List.map_congr_left fun f hf => (heq f hf).2 (hall f hf)
    simp only [ofFindings, hlines]

end Views

namespace Report.ComparisonReport

open Views

variable {r : ComparisonReport} {s : Settings}

/-- The table shows the findings in their order, each in one line with its lines of the two views.
The paths stand above them, and the counts, the verdict and the legend below. -/
def ShowsFindings (r : ComparisonReport) (s : Settings) : Prop :=
  ∃ head body,
    r.viewTable.ShowsRow s.compact [r.oldPath ++ " (old)", r.newPath ++ " (new)"] head ∧
    List.Forall₂ (fun f line =>
      r.viewTable.ShowsRow s.compact [(ofFindings [f]).old, (ofFindings [f]).new] [line])
      r.comparison.findings body ∧
    Text.lines (r.table s) =
      r.viewTable.opening s.compact head ++ body ++ r.viewTable.closing s.compact ++
        r.summaryLines s

theorem bodyRows_eq (hne : r.comparison.findings ≠ [])
    (hline : ∀ f ∈ r.comparison.findings, Text.OneLine (oldLine f) ∧ Text.OneLine (newLine f)) :
    r.bodyRows =
      r.comparison.findings.map fun f => [(ofFindings [f]).old, (ofFindings [f]).new] := by
  obtain ⟨hold, hnew⟩ := lines_ofFindings hne hline
  rw [bodyRows, views, hold, hnew, List.zip_map', List.map_map]
  rfl

theorem showsFindings (s : Settings) (hne : r.comparison.findings ≠ [])
    (hline : ∀ f ∈ r.comparison.findings, Text.OneLine (oldLine f) ∧ Text.OneLine (newLine f)) :
    r.ShowsFindings s := by
  have hchanged : r.comparison.isChanged = true := by simpa [Comparison.isChanged] using hne
  obtain ⟨head, blocks, hhead, hblocks, hlines⟩ := r.lines_table s hchanged
  rw [bodyRows_eq hne hline] at hblocks
  obtain ⟨body, hbody, rfl⟩ := Table.exists_body (List.forall₂_map_left_iff.1 hblocks) <| by
    intro f hf
    simpa [ofFindings] using hline f hf
  exact ⟨head, _, hhead, hbody, hlines⟩

end Report.ComparisonReport

/-- The views of two different layouts have a line for every finding on both sides, and so has the
table. The lines with the same number are equal when the finding is unchanged, and the views when
all findings are. -/
theorem compareLayouts_line_by_line {old new : Layout} (ho : old.WellFormed) (hn : new.WellFormed)
    (hne : old ≠ new) (hop : old.Placed) (hnp : new.Placed) (hol : old.OneLine)
    (hnl : new.OneLine) :
    ∃ c, compareLayouts old new = some (.ok c) ∧ (Views.ofFindings c.findings).Shows c.findings ∧
      c.isChanged = true ∧
      ∀ oldPath newPath, (Report.ComparisonReport.mk oldPath newPath c).bodyRows =
          c.findings.map (fun f => [(Views.ofFindings [f]).old, (Views.ofFindings [f]).new]) ∧
        ∀ s, (Report.ComparisonReport.mk oldPath newPath c).ShowsFindings s := by
  obtain ⟨_, fs, _, hfs, hcmp⟩ := exists_listing ho hn hne
  have hnil : fs ≠ [] := by
    rintro rfl
    exact hne hfs.eq_of_nil
  have hline : ∀ f ∈ fs, Text.OneLine (Views.oldLine f) ∧ Text.OneLine (Views.newLine f) :=
    fun f hf => Views.oneLine_of_listed hol hnl ((hfs.mem_iff f).1 hf)
  have heq : ∀ f ∈ fs, Views.oldLine f = Views.newLine f ↔ f.classification = .unchanged :=
    fun f hf => Views.oldLine_eq_newLine_iff hop hnp ((hfs.mem_iff f).1 hf)
  refine ⟨_, hcmp, ?_, ?_, fun oldPath newPath => ?_⟩
  · rw [Comparison.findings_ofFindings]
    exact Views.shows_ofFindings hnil hline heq
  · simpa [Comparison.isChanged] using hnil
  · rw [← Comparison.findings_ofFindings fs] at hnil hline
    exact ⟨Report.ComparisonReport.bodyRows_eq hnil hline,
      fun s => Report.ComparisonReport.showsFindings s hnil hline⟩

/-- The sample has a total that shrinks and a cap that moves, and nothing is unchanged. -/
theorem compareLayouts_line_by_line_sample :
    ∃ c, compareLayouts .sampleBefore .sampleAfter = some (.ok c) ∧
      (Views.ofFindings c.findings).Shows c.findings := by
  obtain ⟨c, hcmp, hshows, _⟩ := compareLayouts_line_by_line
    (show Layout.sampleBefore.WellFormed by decide) (show Layout.sampleAfter.WellFormed by decide)
    (by decide) (by decide) (by decide) (by decide) (by decide)
  exact ⟨c, hcmp, hshows⟩

end StorageUpgrade
