import StorageUpgrade.Proofs.DirtyBytes
import StorageUpgrade.Proofs.Resolution

/-!
# Safe upgrades

An upgrade is safe when every old variable stays where it is and no added variable repeats an old
one. The comparison reports no hazard for exactly these upgrades, and they leave no byte dirty: the
new layout covers all bytes of the old one, and added variables lie outside of them.
-/
namespace StorageUpgrade

open Overlay

/-- Nothing is replaced, and nothing that is added was there before. -/
structure SafeUpgrade (old new : Layout) : Prop where
  kept : ∀ o ∈ old, ∃ n ∈ new, n.start = o.start ∧ n.Identical o
  added : ∀ n ∈ new, (∀ o ∈ old, o.start ≠ n.start) → ∀ o ∈ old, ¬ o.Identical n

variable {old new : Layout} {o n : Item} {f : Finding} {p s : Position}

theorem SafeUpgrade.refl (l : Layout) : SafeUpgrade l l where
  kept := fun o ho => ⟨o, ho, rfl, .refl o⟩
  added := fun n hn h => absurd rfl (h n hn)

theorem isUnsafe_replacedOutcome :
    (replacedOutcome old o n).isUnsafe = false ↔ n.Identical o := by
  unfold replacedOutcome
  split_ifs with h <;> simp [Classification.isUnsafe, h]

theorem isUnsafe_freshOutcome :
    (freshOutcome old n).isUnsafe = false ↔
      (¬ ∃ p ∈ old, p.range.Meets n.range) ∧ ¬ ∃ p ∈ old, p.Identical n := by
  unfold freshOutcome
  split_ifs with hmeet hid hid <;> simp [Classification.isUnsafe, hmeet, hid]

namespace SafeUpgrade

/-- A kept variable keeps its bytes. -/
theorem exists_range_eq (h : SafeUpgrade old new) (hos : old.Sized) (hns : new.Sized)
    (ho : o ∈ old) : ∃ n ∈ new, n.start = o.start ∧ n.range = o.range := by
  obtain ⟨n, hn, hstart, hid⟩ := h.kept o ho
  exact ⟨n, hn, hstart, hns.range_eq hos hn ho hstart hid⟩

theorem covers (h : SafeUpgrade old new) (hos : old.Sized) (hns : new.Sized)
    (hp : old.Covers p) : new.Covers p := by
  obtain ⟨o, ho, hop⟩ := hp
  obtain ⟨n, hn, _, hrange⟩ := h.exists_range_eq hos hns ho
  exact ⟨n, hn, hrange ▸ hop⟩

/-- An added variable cannot reach into an old one, as it would then meet the variable that is kept
there. -/
theorem not_covers_of_fresh (h : SafeUpgrade old new) (hnew : new.WellFormed) (hos : old.Sized)
    (hns : new.Sized) (hn : n ∈ new) (hfresh : ∀ o ∈ old, o.start ≠ n.start)
    (hp : n.range.Covers p) : ¬ old.Covers p := by
  rintro ⟨o, ho, hop⟩
  obtain ⟨m, hm, hstart, hrange⟩ := h.exists_range_eq hos hns ho
  obtain rfl := hnew.eq_of_covers hn hm hp (hrange ▸ hop)
  exact hfresh o ho hstart.symm

theorem not_dirtyRunStart (h : SafeUpgrade old new) (hnew : new.WellFormed) (hos : old.Sized)
    (hns : new.Sized) : ¬ DirtyRunStart old new s := by
  rintro ⟨⟨n, hn, hstop⟩, ⟨o, ho, hlo, hhi⟩, hfree⟩
  refine (not_covers_iff_start_ne hnew hn hstop).2 hfree ?_
  exact h.covers hos hns ⟨o, ho, hlo.le, hhi⟩

/-- Nothing is dirty after a safe upgrade. -/
theorem dirtyByteCount_eq_zero (h : SafeUpgrade old new) (ho : old.WellFormed)
    (hn : new.WellFormed) (hos : old.Sized) (hns : new.Sized) {parts : List Part}
    (hparts : overlay old new = some parts) : dirtyByteCount parts = 0 := by
  have hsub : old.bytes ⊆ new.bytes := by
    intro p hp
    exact Layout.mem_bytes.2 (h.covers hos hns (Layout.mem_bytes.1 hp))
  have hzero : dirtyWidth parts = 0 := by
    rw [dirtyWidth_overlay ho hn hparts, Finset.sdiff_eq_empty_iff_subset.2 hsub, Finset.card_empty]
  rw [dirtyByteCount_eq (hzero ▸ Position.limit_pos), hzero]

end SafeUpgrade

/-- The listing has no hazard exactly after a safe upgrade. -/
theorem forall_listed_safe_iff (hn : new.WellFormed) (hos : old.Sized) (hns : new.Sized) :
    (∀ f, Listed old new f → f.classification.isUnsafe = false) ↔ SafeUpgrade old new := by
  constructor
  · intro hall
    refine ⟨fun o ho => ?_, fun n hn' hfresh o ho hid => ?_⟩
    · by_cases hstart : ∃ n ∈ new, n.start = o.start
      · obtain ⟨n, hn', hstart⟩ := hstart
        have hsafe := hall _ (.replaced ho hn' hstart.symm)
        exact ⟨n, hn', hstart, isUnsafe_replacedOutcome.1 hsafe⟩
      · push Not at hstart
        cases hall _ (.removed ho hstart)
    · have hsafe := hall _ (.fresh hn' hfresh)
      exact (isUnsafe_freshOutcome.1 hsafe).2 ⟨o, ho, hid⟩
  · intro h f hf
    cases hf with
    | @replaced o n ho hn' hstart =>
      obtain ⟨m, hm, hmstart, hid⟩ := h.kept o ho
      obtain rfl := hn.eq_of_start hm hn' (hmstart.trans hstart)
      exact isUnsafe_replacedOutcome.2 hid
    | @removed o ho hnone =>
      obtain ⟨m, hm, hmstart, _⟩ := h.kept o ho
      exact absurd hmstart (hnone m hm)
    | @fresh n hn' hfresh =>
      refine isUnsafe_freshOutcome.2 ⟨?_, ?_⟩
      · rintro ⟨o, ho, p, hop, hnp⟩
        exact h.not_covers_of_fresh hn hos hns hn' hfresh hnp ⟨o, ho, hop⟩
      · rintro ⟨o, ho, hid⟩
        exact h.added n hn' hfresh o ho hid
    | dirtyRun => rfl

/-- Only the dirty byte runs of the listing start a dirty run. -/
theorem Listed.ne_dirtyByteRun (ho : old.WellFormed) (hn : new.WellFormed)
    (hnone : ∀ s, ¬ DirtyRunStart old new s) (hf : Listed old new f) :
    f.classification ≠ .dirtyByteRun := by
  cases hf with
  | @replaced o n => exact ofReplacement_eq o n old ▸ (ofReplacement_ne n o old).1
  | removed => simp
  | @fresh n hn' => exact ofFresh_eq ho (hn.pos hn') ▸ (ofFresh_ne n old).1
  | dirtyRun hs => exact absurd hs (hnone _)

/-- The verdict on two layouts, and what it excludes. -/
theorem exists_verdict (ho : old.WellFormed) (hn : new.WellFormed) (hos : old.Sized)
    (hns : new.Sized) :
    ∃ c, compareLayouts old new = some (.ok c) ∧
      c.findings.length ≤ old.length + 2 * new.length ∧
      (c.findings.length < 2 ^ 32 → (c.hasUnsafeFindings = false ↔ SafeUpgrade old new)) ∧
      (SafeUpgrade old new → c.summary.dirtyBytes = 0 ∧
        ∀ f ∈ c.findings, f.classification ≠ .dirtyByteRun) := by
  by_cases hne : old = new
  · subst hne
    refine ⟨_, if_pos rfl, Nat.zero_le _, fun _ => ?_, fun _ => ⟨rfl, fun _ hf => nomatch hf⟩⟩
    exact ⟨fun _ => .refl old, fun _ => rfl⟩
  · obtain ⟨_, fs, hparts, hfs, hcmp⟩ := exists_listing ho hn hne
    refine ⟨_, hcmp, ?_, fun hlen => ?_, fun h => ⟨?_, ?_⟩⟩
    · simpa using hfs.length_le
    · rw [Comparison.findings_ofFindings] at hlen
      rw [Comparison.hasUnsafeFindings_ofFindings _ hlen, ← forall_listed_safe_iff hn hos hns]
      simp only [hfs.mem_iff]
    · rw [Comparison.dirtyBytes_ofFindings, h.dirtyByteCount_eq_zero ho hn hos hns hparts]
    · intro f hf
      rw [Comparison.findings_ofFindings, hfs.mem_iff] at hf
      exact hf.ne_dirtyByteRun ho hn fun s => h.not_dirtyRunStart hn hos hns

theorem compareDocuments_of_layouts {d e : Document} (hd : d.layout = .ok old)
    (he : e.layout = .ok new) : compareDocuments d e = compareLayouts old new := by
  rw [compareDocuments, hd, he]

/-- The verdict on two documents is exact. It is favourable for safe upgrades only and for all of
them, and then no byte is dirty and added variables lie on bytes that were free. -/
theorem compareDocuments_safe_iff {d e : Document} (hd : d.layout = .ok old)
    (he : e.layout = .ok new) (ho : old.WellFormed) (hn : new.WellFormed) :
    ∃ c, compareDocuments d e = some (.ok c) ∧ (c.findings.length < 2 ^ 32 →
      (c.hasUnsafeFindings = false ↔ SafeUpgrade old new) ∧
      (c.hasUnsafeFindings = false → c.summary.dirtyBytes = 0 ∧
        (∀ f ∈ c.findings, f.classification ≠ .dirtyByteRun) ∧
        ∀ n ∈ new, (∀ o ∈ old, o.start ≠ n.start) →
          ∀ p, n.range.Covers p → ¬ old.Covers p)) := by
  have hos := Document.sized_layout hd
  have hns := Document.sized_layout he
  obtain ⟨c, hcmp, _, hverdict, hclean⟩ := exists_verdict ho hn hos hns
  refine ⟨c, (compareDocuments_of_layouts hd he).trans hcmp, fun hlen => ⟨hverdict hlen, ?_⟩⟩
  intro hsafe
  have h : SafeUpgrade old new := (hverdict hlen).1 hsafe
  refine ⟨(hclean h).1, (hclean h).2, fun n hn' hfresh p hp => ?_⟩
  exact h.not_covers_of_fresh hn hos hns hn' hfresh hp

/-- A document with a word of storage for each label, one slot after another. -/
def Document.ofWords (labels : List String) : Document :=
  ⟨labels.zipIdx.map fun (label, slot) =>
      ⟨none, none, label, .word 0, .word (UInt64.ofNat slot), "t_uint256"⟩,
    some ⟨[("t_uint256", ⟨"inplace", "uint256", .word 32, none⟩)], by simp⟩⟩

/-- A variable added above the others is safe. -/
theorem compareDocuments_safe_appended :
    ∃ c, compareDocuments (.ofWords ["total"]) (.ofWords ["total", "cap"]) = some (.ok c) ∧
      c.hasUnsafeFindings = false ∧ c.summary.dirtyBytes = 0 := by
  have hold : (Document.ofWords ["total"]).layout = .ok [.inplace "total" "uint256" 0 32] :=
    Document.layout_of_items (by decide +kernel) (by decide)
  have hnew : (Document.ofWords ["total", "cap"]).layout =
      .ok [.inplace "total" "uint256" 0 32, .inplace "cap" "uint256" 32 32] :=
    Document.layout_of_items (by decide +kernel) (by decide)
  obtain ⟨c, hcmp, hverdict⟩ := compareDocuments_safe_iff hold hnew (by decide) (by decide)
  obtain ⟨c', hcmp', hlen, _⟩ := exists_verdict (show Layout.WellFormed _ by decide)
    (show Layout.WellFormed _ by decide) (Document.sized_layout hold) (Document.sized_layout hnew)
  obtain rfl : c' = c :=
    Except.ok.inj (Option.some.inj
      (hcmp'.symm.trans ((compareDocuments_of_layouts hold hnew).symm.trans hcmp)))
  obtain ⟨hiff, hclean⟩ := hverdict (hlen.trans_lt (by decide))
  have hsafe := hiff.2 ⟨by decide, by decide⟩
  exact ⟨c', hcmp, hsafe, (hclean hsafe).1⟩

end StorageUpgrade
