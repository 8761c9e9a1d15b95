import Mathlib.Algebra.BigOperators.Group.List.Basic
import StorageUpgrade.Proofs.Listing

/-!
# The number of dirty bytes

The total of a comparison is the number of bytes of the old layout that the new one does not cover,
and no sum or width on the way is cut off. Every dirty run stands in one finding: in a dirty byte run
or, when the run begins an old variable that is gone, hidden behind the finding of its removal.
-/
namespace StorageUpgrade

open Overlay

variable {α : Type} {old new : Layout} {parts : List Part} {f : Finding}

theorem Position.limit_pos : 0 < limit := by decide +kernel

theorem Position.foldl_addCapped {w : α → Position} {xs : List α} {total : Position}
    (h : total + (xs.map w).sum < limit) :
    xs.foldl (fun t x => addCapped t (w x)) total = total + (xs.map w).sum := by
  induction xs generalizing total with
  | nil => rfl
  | cons x xs ih =>
    rw [List.map_cons, List.sum_cons] at h ⊢
    have hx : addCapped total (w x) = total + w x := addCapped_of_lt (by lia)
    rw [List.foldl_cons, hx, ih (by lia), Nat.add_assoc]

theorem sum_filterMap (w : α → Option Position) (xs : List α) :
    (xs.filterMap w).sum = (xs.map fun x => (w x).getD 0).sum := by
  induction xs with
  | nil => rfl
  | cons x xs ih => cases h : w x <;> simp [h, ih]

namespace Overlay

/-- Bytes of the dirty parts, added up without a bound. -/
def dirtyWidth (parts : List Part) : Position :=
  ((parts.filterMap Part.dirty?).map ByteRange.width).sum

theorem dirtyWidth_append (xs ys : List Part) :
    dirtyWidth (xs ++ ys) = dirtyWidth xs + dirtyWidth ys := by
  simp [dirtyWidth]

theorem dirtyWidth_cons_dirty (r : ByteRange) (parts : List Part) :
    dirtyWidth (.dirty r :: parts) = r.width + dirtyWidth parts := by
  simp [dirtyWidth, Part.dirty?]

theorem map_range_filter_isDirty (parts : List Part) :
    (parts.filter Part.isDirty).map Part.range = parts.filterMap Part.dirty? := by
  induction parts with
  | nil => rfl
  | cons p parts ih =>
    cases p with
    | item n => exact ih
    | dirty r => exact congrArg (r :: ·) ih

/-- The count is the sum as long as the sum is a position. -/
theorem dirtyByteCount_eq (h : dirtyWidth parts < Position.limit) :
    dirtyByteCount parts = dirtyWidth parts := by
  rw [dirtyWidth, ← map_range_filter_isDirty, List.map_map] at h ⊢
  rw [dirtyByteCount, Position.foldl_addCapped (by rwa [Nat.zero_add]), Nat.zero_add]
  rfl

/-- No step of the count is cut off, neither the width of a dirty part nor its sum with the widths
before it. -/
def CountedExactly (parts : List Part) : Prop :=
  ∀ xs p ys, parts = xs ++ p :: ys → p.isDirty = true →
    p.range.start ≤ p.range.stop ∧ dirtyByteCount xs + p.range.width < Position.limit

theorem countedExactly (hpos : ∀ p ∈ parts, p.range.start ≤ p.range.stop)
    (h : dirtyWidth parts < Position.limit) : CountedExactly parts := by
  rintro xs p ys rfl hp
  refine ⟨hpos p (by simp), ?_⟩
  cases p with
  | item n => cases hp
  | dirty r =>
    rw [dirtyWidth_append, dirtyWidth_cons_dirty] at h
    rw [dirtyByteCount_eq (by lia)]
    exact Nat.lt_of_le_of_lt (by simp [Part.range]) h

end Overlay

/-- The dirty parts of the overlay hold the bytes that only the old layout covers. -/
theorem dirtyWidth_overlay (ho : old.WellFormed) (hn : new.WellFormed)
    (hparts : overlay old new = some parts) :
    dirtyWidth parts = (old.bytes \ new.bytes).card := by
  have hsub : (parts.filterMap Part.dirty?).Sublist (parts.map Part.range) := by
    rw [← map_range_filter_isDirty]
    exact List.filter_sublist.map _
  rw [dirtyWidth, ((overlay_ascending ho hn hparts).sublist hsub).sum_width]
  congr 1
  ext p
  simp only [Finset.mem_biUnion, List.mem_toFinset, overlay_dirty ho hn hparts, List.mem_flatMap,
    ByteRange.mem_bytes, Finset.mem_sdiff, Layout.mem_bytes]
  constructor
  · rintro ⟨r, ⟨o, ho', hr⟩, hp⟩
    obtain ⟨hop, hfree⟩ := (ByteRange.covers_uncovered hn).1 ⟨r, hr, hp⟩
    exact ⟨⟨o, ho', hop⟩, hfree⟩
  · rintro ⟨⟨o, ho', hop⟩, hfree⟩
    obtain ⟨r, hr, hp⟩ := (ByteRange.covers_uncovered hn).2 ⟨hop, hfree⟩
    exact ⟨r, ⟨o, ho', hr⟩, hp⟩

/-- There are no more bytes than positions. -/
theorem card_bytes_sdiff_lt (h : ∀ o ∈ old, o.stop < Position.limit) :
    (old.bytes \ new.bytes).card < Position.limit := by
  have hsub : old.bytes \ new.bytes ⊆ Finset.range (Position.limit - 1) := by
    intro p hp
    obtain ⟨o, ho, hop⟩ := Layout.mem_bytes.1 (Finset.mem_sdiff.1 hp).1
    have := h o ho
    rw [Finset.mem_range]
    grind
  have hcard := Finset.card_le_card hsub
  have := Position.limit_pos
  rw [Finset.card_range] at hcard
  lia

/-- Dirty bytes at the start of an old variable that no new one replaces. The finding has the view
of the whole variable, whatever becomes of its other bytes. -/
def Finding.hiddenBytes (new : Layout) (f : Finding) : Option Position :=
  match f.classification, f.old with
  | .removed, some v =>
    if new.Covers v.start then none else some (new.runStop v.start v.stop - v.start)
  | _, _ => none

/-- The dirty range of an entry of the padded overlay. -/
def Aligned.dirty? : Aligned Part → Option ByteRange
  | .entry p => p.dirty?
  | .absent _ => none

namespace Finding

theorem dirtyBytes_eq_none (h : f.classification ≠ .dirtyByteRun) : f.dirtyBytes = none := by
  unfold dirtyBytes
  split
  · exact absurd ‹_› h
  · rfl

theorem hiddenBytes_eq_none (h : f.classification ≠ .removed) : f.hiddenBytes new = none := by
  unfold hiddenBytes
  split
  · exact absurd ‹_› h
  · rfl

theorem hiddenBytes_removed (new : Layout) (o : Item) (s : Position) :
    (Finding.mk .removed s (some (.ofItem o)) none).hiddenBytes new =
      if new.Covers o.start then none else some (new.runStop o.start o.stop - o.start) := rfl

end Finding

/-- The width of the dirty part of a row is told by its finding. -/
theorem dirtyBytes_of_row (ho : old.WellFormed) (hn : new.WellFormed)
    (hparts : overlay old new = some parts) {row : Aligned Part × Aligned Item}
    (hrow : Alignment.Row parts old row) (hf : findingOfRow old row = .ok f) :
    f.dirtyBytes.getD 0 + (f.hiddenBytes new).getD 0 =
      (row.1.dirty?.map ByteRange.width).getD 0 := by
  cases hrow with
  | @both p o hp ho' h =>
    cases p with
    | item n =>
      obtain rfl := Except.ok.inj hf
      obtain ⟨hrun, hremoved⟩ := ofReplacement_ne n o old
      rw [Finding.dirtyBytes_eq_none hrun, Finding.hiddenBytes_eq_none hremoved]
      rfl
    | dirty r =>
      obtain rfl := Except.ok.inj hf
      obtain ⟨o', ho'', hpiece⟩ := (dirty_mem_overlay ho hn hparts).1 hp
      have hr : r.start = o.start := h
      have hoo : o' = o := by
        refine ho.eq_of_covers ho'' ho' hpiece.inside ?_
        exact hr ▸ ho.covers_start ho'
      subst hoo
      have hwidth : r.width = new.runStop o'.start o'.stop - o'.start := by
        rw [ByteRange.width, hpiece.stops, hr]
        rfl
      rw [Finding.hiddenBytes_removed, if_neg (hr ▸ hpiece.free), ← hwidth]
      exact Nat.zero_add _
  | @overlayOnly p hp h =>
    cases p with
    | item n =>
      obtain rfl := Except.ok.inj hf
      obtain ⟨hrun, hremoved⟩ := ofFresh_ne n old
      rw [Finding.dirtyBytes_eq_none hrun, Finding.hiddenBytes_eq_none hremoved]
      rfl
    | dirty r =>
      obtain rfl := Except.ok.inj hf
      rfl
  | @oldOnly o ho' h =>
    obtain rfl := Except.ok.inj hf
    -- A free first byte would open a piece, which would be a part with this start.
    have hcov : new.Covers o.start := by
      by_contra hfree
      have hpiece : o.range.IsPiece new ⟨o.start, new.runStop o.start o.stop⟩ :=
        ⟨ho.covers_start ho', hfree, .inl rfl, rfl⟩
      exact h _ ((dirty_mem_overlay ho hn hparts).2 ⟨o, ho', hpiece⟩) rfl
    rw [Finding.hiddenBytes_removed, if_pos hcov]
    rfl

/-- The rows keep every dirty part, and placeholders add none. -/
theorem sum_rowDirty {a : Alignment} (ha : a.Exact parts old) :
    (a.rows.map fun row => (row.1.dirty?.map ByteRange.width).getD 0).sum = dirtyWidth parts := by
  obtain ⟨missing, hperm⟩ := ha.overlay_perm
  have hrows : (a.rows.filterMap fun row => row.1.dirty?).Perm (parts.filterMap Part.dirty?) := by
    have h := hperm.filterMap Aligned.dirty?
    rw [List.filterMap_append, List.filterMap_map, List.filterMap_map, List.filterMap_map] at h
    have hmissing : missing.filterMap (Aligned.dirty? ∘ .absent) = [] :=
      List.filterMap_eq_nil_iff.2 fun _ _ => rfl
    rwa [hmissing, List.append_nil] at h
  rw [dirtyWidth, ← (hrows.map _).sum_eq, List.map_filterMap, sum_filterMap]

/-- The findings account for every dirty byte. -/
theorem sum_dirtyBytes_of_rows (ho : old.WellFormed) (hn : new.WellFormed)
    (hparts : overlay old new = some parts) {a : Alignment} {fs : List Finding}
    (ha : a.Exact parts old) (hfs : a.rows.mapM (findingOfRow old) = .ok fs) :
    (fs.filterMap Finding.dirtyBytes).sum + (fs.filterMap (Finding.hiddenBytes new)).sum =
      dirtyWidth parts := by
  rw [sum_filterMap, sum_filterMap, ← List.sum_map_add, ← sum_rowDirty ha]
  refine congrArg List.sum (map_eq_of_mapM_ok hfs fun row hrow f hf => ?_)
  exact dirtyBytes_of_row ho hn hparts ((ha.mem_rows row).1 hrow) hf

/-- The dirty bytes of two well-formed layouts are counted exactly. The count is the number of bytes
that only the old layout covers, it is spread over the findings, and no sum is cut off. -/
theorem compareLayouts_dirtyBytes (ho : old.WellFormed) (hn : new.WellFormed)
    (hlimit : ∀ o ∈ old, o.stop < Position.limit) :
    ∃ c parts, compareLayouts old new = some (.ok c) ∧ overlay old new = some parts ∧
      c.summary.dirtyBytes = (old.bytes \ new.bytes).card ∧
      c.summary.dirtyBytes = (c.findings.filterMap Finding.dirtyBytes).sum +
        (c.findings.filterMap (Finding.hiddenBytes new)).sum ∧
      CountedExactly parts := by
  obtain ⟨parts, hparts⟩ := exists_overlay old hn.1
  have hcard := dirtyWidth_overlay ho hn hparts
  have hlt : dirtyWidth parts < Position.limit := hcard ▸ card_bytes_sdiff_lt hlimit
  have hexact : CountedExactly parts := by
    refine countedExactly (fun p hp => ?_) hlt
    exact ((overlay_ascending ho hn hparts).1 p.range (List.mem_map_of_mem hp)).le
  by_cases hne : old = new
  · subst hne
    refine ⟨_, parts, if_pos rfl, hparts, ?_, rfl, hexact⟩
    rw [Finset.sdiff_self, Finset.card_empty]
    rfl
  · obtain ⟨a, fs, ha, hfs, hcmp⟩ := exists_alignment ho hn hne hparts
    refine ⟨_, parts, hcmp, hparts, ?_, ?_, hexact⟩
    · rw [Comparison.dirtyBytes_ofFindings, dirtyByteCount_eq hlt, hcard]
    · rw [Comparison.dirtyBytes_ofFindings, Comparison.findings_ofFindings, dirtyByteCount_eq hlt,
        sum_dirtyBytes_of_rows ho hn hparts ha hfs]

/-- Bytes 16 to 31 are dirty in a run of their own, and bytes 32 to 39 behind a removal. -/
theorem compareLayouts_dirtyBytes_sample :
    ∃ c parts, compareLayouts .sampleBefore .sampleAfter = some (.ok c) ∧
      overlay Layout.sampleBefore Layout.sampleAfter = some parts ∧ c.summary.dirtyBytes = 24 ∧
      (c.findings.filterMap Finding.dirtyBytes).sum +
        (c.findings.filterMap (Finding.hiddenBytes .sampleAfter)).sum = 24 ∧
      CountedExactly parts := by
  have hbefore : Layout.sampleBefore.WellFormed := by decide
  have hafter : Layout.sampleAfter.WellFormed := by decide
  obtain ⟨c, parts, hcmp, hparts, hcard, hrows, hexact⟩ :=
    compareLayouts_dirtyBytes hbefore hafter (by decide +kernel)
  have htotal : c.summary.dirtyBytes = 24 := hcard.trans (by decide +kernel)
  exact ⟨c, parts, hcmp, hparts, htotal, hrows ▸ htotal, hexact⟩

end StorageUpgrade
