import Mathlib.Data.Set.Basic
import StorageUpgrade.Proofs.DirtyBytes

/-!
# Comparing forth and back

The sweep lets new variables win and cuts old ones only, so the comparisons of two layouts in
either direction take different ways and cut different runs. Their findings correspond all the
same: what is removed one way is added the other way, what is unchanged stays so, and the dirty
bytes of the two directions differ by as much as the sizes of the layouts.
-/
namespace StorageUpgrade

open Overlay

variable {a b old new : Layout} {o n : Item} {f : Finding} {s : Position}

/-- A new variable where no old one starts. -/
def Finding.IsAdded (f : Finding) : Prop := f.old = none ∧ f.classification ≠ .dirtyByteRun

/-- The bytes at which findings of a kind start. -/
def Comparison.starts (c : Comparison) (kind : Finding → Prop) : Set Position :=
  {s | ∃ f ∈ c.findings, kind f ∧ f.start = s}

/-- The findings of the two comparisons correspond as those of opposite directions. -/
structure Comparison.Dual (forth back : Comparison) : Prop where
  unchanged : forth.starts (·.classification = .unchanged) =
    back.starts (·.classification = .unchanged)
  removed : forth.starts (·.classification = .removed) = back.starts Finding.IsAdded
  added : forth.starts Finding.IsAdded = back.starts (·.classification = .removed)
  /-- Where both layouts have a variable, the views trade places. -/
  replaced : ∀ u v : View, forth.starts (fun f => f.old = some u ∧ f.new = some v) =
    back.starts fun f => f.old = some v ∧ f.new = some u

theorem replacedOutcome_eq_unchanged_iff :
    replacedOutcome old o n = .unchanged ↔ n.Identical o := by
  unfold replacedOutcome
  split_ifs with h <;> simp [h]

theorem replacedOutcome_ne_removed : replacedOutcome old o n ≠ .removed := by
  rw [← ofReplacement_eq]
  exact (ofReplacement_ne n o old).2

theorem freshOutcome_ne : freshOutcome old n ≠ .unchanged ∧ freshOutcome old n ≠ .removed ∧
    freshOutcome old n ≠ .dirtyByteRun := by
  unfold freshOutcome
  split_ifs <;> simp

/-- The bytes at which the listing has findings of a kind. -/
def listedStarts (old new : Layout) (kind : Finding → Prop) : Set Position :=
  {s | ∃ f, Listed old new f ∧ kind f ∧ f.start = s}

theorem starts_eq_listedStarts {fs : List Finding} (hfs : IsListing old new fs)
    (dirtyBytes : Position) (kind : Finding → Prop) :
    (Comparison.ofFindings fs dirtyBytes).starts kind = listedStarts old new kind := by
  ext s
  simp only [Comparison.starts, listedStarts, Comparison.findings_ofFindings, hfs.mem_iff]

/-- A variable is unchanged where both layouts have it. -/
theorem mem_listedStarts_unchanged :
    s ∈ listedStarts old new (·.classification = .unchanged) ↔
      ∃ o ∈ old, ∃ n ∈ new, n.Identical o ∧ o.start = s ∧ n.start = s := by
  constructor
  · rintro ⟨f, hf, hclass, rfl⟩
    cases hf with
    | @replaced o n ho hn h =>
      have hid : n.Identical o := replacedOutcome_eq_unchanged_iff.1 hclass
      exact ⟨o, ho, n, hn, hid, h, rfl⟩
    | removed => cases hclass
    | fresh => exact absurd hclass freshOutcome_ne.1
    | dirtyRun => cases hclass
  · rintro ⟨o, ho, n, hn, hid, hos, hns⟩
    have hlisted := Listed.replaced ho hn (hos.trans hns.symm)
    exact ⟨_, hlisted, replacedOutcome_eq_unchanged_iff.2 hid, hns⟩

/-- A variable is removed where only the old layout has one. -/
theorem mem_listedStarts_removed :
    s ∈ listedStarts old new (·.classification = .removed) ↔
      (∃ o ∈ old, o.start = s) ∧ ∀ n ∈ new, n.start ≠ s := by
  constructor
  · rintro ⟨f, hf, hclass, rfl⟩
    cases hf with
    | replaced => exact absurd hclass replacedOutcome_ne_removed
    | @removed o ho h => exact ⟨⟨o, ho, rfl⟩, h⟩
    | fresh => exact absurd hclass freshOutcome_ne.2.1
    | dirtyRun => cases hclass
  · rintro ⟨⟨o, ho, rfl⟩, h⟩
    exact ⟨_, .removed ho h, rfl, rfl⟩

/-- A variable is added where only the new layout has one. -/
theorem mem_listedStarts_added :
    s ∈ listedStarts old new Finding.IsAdded ↔
      (∃ n ∈ new, n.start = s) ∧ ∀ o ∈ old, o.start ≠ s := by
  constructor
  · rintro ⟨f, hf, ⟨hview, hclass⟩, rfl⟩
    cases hf with
    | replaced => cases hview
    | removed => cases hview
    | @fresh n hn h => exact ⟨⟨n, hn, rfl⟩, h⟩
    | dirtyRun => exact absurd rfl hclass
  · rintro ⟨⟨n, hn, rfl⟩, h⟩
    exact ⟨_, .fresh hn h, ⟨rfl, freshOutcome_ne.2.2⟩, rfl⟩

/-- A finding has two views where both layouts have a variable. -/
theorem mem_listedStarts_replaced {u v : View} :
    s ∈ listedStarts old new (fun f => f.old = some u ∧ f.new = some v) ↔
      ∃ o ∈ old, ∃ n ∈ new, .ofItem o = u ∧ .ofItem n = v ∧ o.start = s ∧ n.start = s := by
  constructor
  · rintro ⟨f, hf, ⟨hold, hnew⟩, rfl⟩
    cases hf with
    | @replaced o n ho hn h =>
      exact ⟨o, ho, n, hn, Option.some.inj hold, Option.some.inj hnew, h, rfl⟩
    | removed => cases hnew
    | fresh => cases hold
    | dirtyRun => cases hold
  · rintro ⟨o, ho, n, hn, rfl, rfl, hos, hns⟩
    exact ⟨_, .replaced ho hn (hos.trans hns.symm), ⟨rfl, rfl⟩, hns⟩

theorem dual_of_isListing {fs gs : List Finding} (hfs : IsListing a b fs) (hgs : IsListing b a gs)
    (p q : Position) : (Comparison.ofFindings fs p).Dual (Comparison.ofFindings gs q) where
  unchanged := by
    ext s
    rw [starts_eq_listedStarts hfs, starts_eq_listedStarts hgs, mem_listedStarts_unchanged,
      mem_listedStarts_unchanged]
    constructor
    · rintro ⟨o, ho, n, hn, hid, hos, hns⟩
      exact ⟨n, hn, o, ho, hid.symm, hns, hos⟩
    · rintro ⟨n, hn, o, ho, hid, hns, hos⟩
      exact ⟨o, ho, n, hn, hid.symm, hos, hns⟩
  removed := by
    ext s
    rw [starts_eq_listedStarts hfs, starts_eq_listedStarts hgs, mem_listedStarts_removed,
      mem_listedStarts_added]
  added := by
    ext s
    rw [starts_eq_listedStarts hfs, starts_eq_listedStarts hgs, mem_listedStarts_removed,
      mem_listedStarts_added]
  replaced := by
    intro u v
    ext s
    rw [starts_eq_listedStarts hfs, starts_eq_listedStarts hgs, mem_listedStarts_replaced,
      mem_listedStarts_replaced]
    constructor
    · rintro ⟨o, ho, n, hn, hu, hv, hos, hns⟩
      exact ⟨n, hn, o, ho, hv, hu, hns, hos⟩
    · rintro ⟨n, hn, o, ho, hv, hu, hns, hos⟩
      exact ⟨o, ho, n, hn, hu, hv, hos, hns⟩

/-- Either way the dirty bytes and the bytes of the layout that is kept make up all bytes in use. -/
theorem dirtyByteCount_add_card (ha : a.WellFormed) (hb : b.WellFormed)
    (hlimit : ∀ i ∈ a, i.stop < Position.limit) {parts : List Part}
    (hparts : overlay a b = some parts) :
    dirtyByteCount parts + b.bytes.card = (a.bytes ∪ b.bytes).card := by
  have hwidth := dirtyWidth_overlay ha hb hparts
  have hlt : dirtyWidth parts < Position.limit := by
    rw [hwidth]
    exact card_bytes_sdiff_lt hlimit
  rw [dirtyByteCount_eq hlt, hwidth, Finset.card_sdiff_add_card]

/-- The comparisons of two different well-formed layouts in both directions succeed and are dual,
and the bytes that each of them leaves dirty balance with the sizes of the layouts. -/
theorem compareLayouts_dual (ha : a.WellFormed) (hb : b.WellFormed) (hne : a ≠ b) :
    ∃ forth back, compareLayouts a b = some (.ok forth) ∧ compareLayouts b a = some (.ok back) ∧
      forth.Dual back ∧
      ((∀ i ∈ a ++ b, i.stop < Position.limit) →
        forth.summary.dirtyBytes + b.bytes.card = back.summary.dirtyBytes + a.bytes.card) := by
  obtain ⟨_, fs, hab, hfs, hforth⟩ := exists_listing ha hb hne
  obtain ⟨_, gs, hba, hgs, hback⟩ := exists_listing hb ha hne.symm
  refine ⟨_, _, hforth, hback, dual_of_isListing hfs hgs _ _, fun hlimit => ?_⟩
  have hla : ∀ i ∈ a, i.stop < Position.limit := fun i hi => hlimit i (List.mem_append_left b hi)
  have hlb : ∀ i ∈ b, i.stop < Position.limit := fun i hi => hlimit i (List.mem_append_right a hi)
  rw [Comparison.dirtyBytes_ofFindings, Comparison.dirtyBytes_ofFindings,
    dirtyByteCount_add_card ha hb hla hab, dirtyByteCount_add_card hb ha hlb hba,
    Finset.union_comm]

/-- Forth 24 bytes are left dirty and back 8, as the layouts share 24 of their 48 and 32 bytes. -/
theorem compareLayouts_dual_sample :
    ∃ forth back, compareLayouts .sampleBefore .sampleAfter = some (.ok forth) ∧
      compareLayouts .sampleAfter .sampleBefore = some (.ok back) ∧ forth.Dual back ∧
      forth.summary.dirtyBytes + 32 = back.summary.dirtyBytes + 48 := by
  obtain ⟨forth, back, hforth, hback, hdual, hbytes⟩ := compareLayouts_dual
    (show Layout.sampleBefore.WellFormed by decide) (show Layout.sampleAfter.WellFormed by decide)
    (by decide)
  have hbefore : Layout.sampleBefore.bytes.card = 48 := by decide +kernel
  have hafter : Layout.sampleAfter.bytes.card = 32 := by decide +kernel
  rw [hbefore, hafter] at hbytes
  exact ⟨forth, back, hforth, hback, hdual, hbytes (by decide +kernel)⟩

end StorageUpgrade
