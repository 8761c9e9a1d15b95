import StorageUpgrade.Proofs.Listing

/-!
# Comparisons without a finding

Equal layouts are not compared at all. The stages of a comparison would come to the same verdict on
them: a layout covers itself, so the sweep leaves nothing dirty, the alignment needs no placeholder
and every variable is unchanged. The other way round, a comparison without a finding tells that the
layouts are equal.
-/
namespace StorageUpgrade

open Overlay

variable {l old new : Layout} {i : Item}

/-- The comparison without the shortcut for equal layouts. -/
def compareInFull (old new : Layout) : Option (Except Error Comparison) :=
  (overlay old new).map fun parts => do
    let aligned ← align parts old
    let findings ← classify aligned old
    return .ofFindings findings (dirtyByteCount parts)

theorem compareLayouts_of_ne (h : old ≠ new) : compareLayouts old new = compareInFull old new :=
  if_neg h

/-- The finding of a variable that stays as it is. -/
def Finding.kept (i : Item) : Finding :=
  ⟨.unchanged, i.start, some (.ofItem i), some (.ofItem i)⟩

/-- The alignment of a layout with itself, without a placeholder. -/
def Alignment.ofLayout (l : Layout) : Alignment :=
  ⟨l.map fun i => .entry (.item i), l.map .entry⟩

theorem Alignment.length_ofLayout (l : Layout) :
    (ofLayout l).overlay.length = (ofLayout l).old.length := by
  simp [ofLayout]

/-- Two comparisons tell the same, the number of unchanged variables apart. -/
structure Comparison.SameVerdict (c d : Comparison) : Prop where
  hasUnsafeFindings : c.hasUnsafeFindings = d.hasUnsafeFindings
  unsafeFindings : c.summary.unsafeFindings = d.summary.unsafeFindings
  dirtyBytes : c.summary.dirtyBytes = d.summary.dirtyBytes
  count : ∀ k, k ≠ .unchanged → c.summary.count k = d.summary.count k
  summaryText : c.summaryText = d.summaryText

/-- What the stages of a comparison make of a layout and itself. -/
structure Layout.ComparesToItself (l : Layout) : Prop where
  overlay_eq : overlay l l = some (l.map .item)
  align_eq : align (l.map .item) l = .ok (.ofLayout l)
  classify_eq : classify (.ofLayout l) l = .ok (l.map .kept)
  dirtyByteCount_eq : dirtyByteCount (l.map .item) = 0
  /-- The shortcut has the verdict of the stages. -/
  verdict : ∃ full short, compareInFull l l = some (.ok full) ∧ compareLayouts l l = some (.ok short) ∧
    full.findings = l.map .kept ∧ short.findings = [] ∧ full.SameVerdict short

/-- A layout leaves nothing of itself uncovered. -/
theorem overlay_self (hl : l.WellFormed) : overlay l l = some (l.map .item) := by
  obtain ⟨parts, hparts⟩ := exists_overlay l hl.1
  have hdirty : parts.filterMap Part.dirty? = [] := by
    rw [overlay_dirty hl hl hparts, List.flatMap_eq_nil_iff]
    intro o ho
    rw [List.eq_nil_iff_forall_not_mem]
    intro r hr
    have hpiece := (ByteRange.mem_uncovered (hl.pos ho) hl).1 hr
    exact hpiece.free ⟨o, ho, hpiece.inside⟩
  have hitems : parts.filterMap Part.item? = l := (emits_overlay hl hl hparts).items
  rw [hparts, Part.eq_map_item hdirty, hitems]

theorem dirtyByteCount_map_item (l : Layout) : dirtyByteCount (l.map .item) = 0 := by
  have hnone : (l.map Part.item).filter Part.isDirty = [] := by
    rw [List.filter_eq_nil_iff]
    intro p hp
    obtain ⟨i, _, rfl⟩ := List.mem_map.1 hp
    exact Bool.false_ne_true
  rw [dirtyByteCount, hnone]
  rfl

theorem align_self (hl : l.WellFormed) : align (l.map .item) l = .ok (.ofLayout l) := by
  have hle : l.Pairwise fun i j => i.start ≤ j.start := by
    refine hl.2.imp_of_mem fun {i j} hi _ hij => ?_
    exact (hl.pos hi).le.trans hij
  have hoverlay : padStarts Part.start ((l.map Part.item).map .entry) (l.map Item.start) =
      (Alignment.ofLayout l).overlay := by
    rw [List.map_map]
    refine padStarts_eq_self (List.pairwise_map.2 hle) fun p hp => ?_
    rwa [List.map_map]
  have hold : padStarts Item.start (l.map .entry)
      ((Alignment.ofLayout l).overlay.map (Aligned.start Part.start)) =
        (Alignment.ofLayout l).old := by
    refine padStarts_eq_self (List.pairwise_map.2 hle) fun p hp => ?_
    rw [Alignment.ofLayout, List.map_map] at hp
    rwa [List.map_map]
  rw [align, hoverlay, hold, if_pos (Alignment.length_ofLayout l)]

theorem findingOfRow_self (l : Layout) (i : Item) :
    findingOfRow l (.entry (.item i), .entry i) = .ok (.kept i) := by
  rw [findingOfRow, Classification.ofReplacement, if_pos (Item.Identical.refl i)]
  rfl

theorem classify_self (l : Layout) : classify (.ofLayout l) l = .ok (l.map .kept) := by
  have hrows : (Alignment.ofLayout l).rows = l.map fun i => (.entry (.item i), .entry i) :=
    List.zip_map' ..
  rw [classify, if_pos (Alignment.length_ofLayout l), hrows, mapM_eq_ok_iff,
    List.forall₂_map_left_iff, List.forall₂_map_right_iff, List.forall₂_same]
  exact fun i _ => findingOfRow_self l i

/-- Variables that stay as they are raise no counter but their own. -/
theorem countP_kept (counts : Classification → Bool) (h : counts .unchanged = false)
    (l : Layout) : (l.map Finding.kept).countP (fun f => counts f.classification) = 0 := by
  rw [List.countP_eq_zero]
  intro f hf
  obtain ⟨i, _, rfl⟩ := List.mem_map.1 hf
  exact Bool.eq_false_iff.1 h

theorem sameVerdict_kept (l : Layout) :
    (Comparison.ofFindings (l.map .kept) 0).SameVerdict (Comparison.finish {}) := by
  have hunsafe : (Comparison.ofFindings (l.map .kept) 0).summary.unsafeFindings = 0 := by
    rw [Comparison.unsafeFindings_ofFindings, countP_kept Classification.isUnsafe rfl]
    rfl
  have hcount : ∀ k, k ≠ .unchanged →
      (Comparison.ofFindings (l.map .kept) 0).summary.count k = Summary.count {} k := by
    intro k hk
    have hzero := countP_kept (fun c => decide (c = k)) (decide_eq_false hk.symm) l
    rw [Comparison.count_ofFindings, hzero]
    cases k <;> rfl
  exact
    { hasUnsafeFindings := by
        rw [Comparison.hasUnsafeFindings, hunsafe]
        rfl
      unsafeFindings := hunsafe
      dirtyBytes := rfl
      count := hcount
      summaryText := Summary.text_congr hcount rfl }

theorem comparesToItself (hl : l.WellFormed) : l.ComparesToItself := by
  have hoverlay := overlay_self hl
  have halign := align_self hl
  have hfull : compareInFull l l = some (.ok (.ofFindings (l.map .kept) 0)) := by
    simp only [compareInFull, hoverlay, Option.map_some, halign, classify_self,
      dirtyByteCount_map_item, bind, Except.bind]
    rfl
  have hshort : compareLayouts l l = some (.ok (Comparison.finish {})) := if_pos rfl
  have hkept : (Comparison.ofFindings (l.map .kept) 0).findings = l.map .kept :=
    Comparison.findings_ofFindings _ _
  exact ⟨hoverlay, halign, classify_self l, dirtyByteCount_map_item l, _, _, hfull, hshort, hkept,
    rfl, sameVerdict_kept l⟩

/-- Without a finding there is no variable on either side. -/
theorem IsListing.eq_of_nil (h : IsListing old new []) : old = new := by
  have hnone : ∀ s, ¬ HasRow old new s := by
    intro s hs
    obtain ⟨f, hf, _⟩ := (h.hasRow_iff s).2 hs
    cases hf
  have hold : old = [] := by
    rw [List.eq_nil_iff_forall_not_mem]
    exact fun o ho => hnone o.start (.inl ⟨o, ho, rfl⟩)
  have hnew : new = [] := by
    rw [List.eq_nil_iff_forall_not_mem]
    exact fun n hn => hnone n.start (.inr (.inl ⟨n, hn, rfl⟩))
  rw [hold, hnew]

/-- The shortcut for equal layouts agrees with the stages that it skips. Other layouts go through
all stages, and they have a finding. -/
theorem compareLayouts_noChange (hl : l.WellFormed) :
    l.ComparesToItself ∧ ∀ new : Layout, new.WellFormed →
      ∃ c, compareLayouts l new = some (.ok c) ∧ (l ≠ new → compareInFull l new = some (.ok c)) ∧
        (c.findings = [] ↔ l = new) := by
  refine ⟨comparesToItself hl, fun new hnew => ?_⟩
  by_cases heq : l = new
  · exact ⟨_, if_pos heq, fun hne => absurd heq hne, iff_of_true rfl heq⟩
  · obtain ⟨_, fs, _, hfs, hcmp⟩ := exists_listing hl hnew heq
    refine ⟨_, hcmp, fun hne => ?_, iff_of_false (fun hnil => ?_) heq⟩
    · rw [← compareLayouts_of_ne hne, hcmp]
    · rw [Comparison.findings_ofFindings] at hnil
      rw [hnil] at hfs
      exact heq hfs.eq_of_nil

/-- The sample compares to itself, and the change that it undergoes is found. -/
theorem compareLayouts_noChange_sample :
    Layout.sampleBefore.ComparesToItself ∧
      ∃ c, compareInFull .sampleBefore .sampleAfter = some (.ok c) ∧ c.findings ≠ [] := by
  obtain ⟨hself, hother⟩ :=
    compareLayouts_noChange (show Layout.sampleBefore.WellFormed by decide)
  obtain ⟨c, _, hfull, hnil⟩ := hother .sampleAfter (by decide)
  have hne : Layout.sampleBefore ≠ .sampleAfter := by decide
  exact ⟨hself, c, hfull hne, fun h => hne (hnil.1 h)⟩

end StorageUpgrade
