import StorageUpgrade.Comparison
import StorageUpgrade.Proofs.Alignment
import StorageUpgrade.Proofs.Overlay
import StorageUpgrade.Proofs.Summary
import StorageUpgrade.Proofs.Traversal

/-!
# The findings, byte by byte

The listing says for a single byte position which finding it has, from the variables of the two
layouts alone. The main result is that comparing two well-formed layouts succeeds and that its
findings are this listing in the order of the bytes.
-/
namespace StorageUpgrade

open Overlay

/-- Outcome of a new variable that takes the place of an old one. -/
def replacedOutcome (old : Layout) (o n : Item) : Classification :=
  if n.Identical o then .unchanged
  else if ∃ p ∈ old, p.Identical n then .movedAndProblematic
  else .problematic

/-- Outcome of a new variable that starts where no old one does. -/
def freshOutcome (old : Layout) (n : Item) : Classification :=
  if ∃ p ∈ old, p.range.Meets n.range then
    if ∃ p ∈ old, p.Identical n then .movedAndProblematic else .problematic
  else if ∃ p ∈ old, p.Identical n then .moved
  else .new

/-- Bytes of an old variable stay dirty from `s` on, above the end of a new variable. -/
def DirtyRunStart (old new : Layout) (s : Position) : Prop :=
  (∃ n ∈ new, n.stop = s) ∧ (∃ o ∈ old, o.start < s ∧ s < o.stop) ∧ ∀ n ∈ new, n.start ≠ s

/-- The positions that have a finding. -/
def HasRow (old new : Layout) (s : Position) : Prop :=
  (∃ o ∈ old, o.start = s) ∨ (∃ n ∈ new, n.start = s) ∨ DirtyRunStart old new s

/-- The finding of a position. -/
inductive Listed (old new : Layout) : Finding → Prop
  /-- A new variable starts where an old one started. -/
  | replaced {o n} (ho : o ∈ old) (hn : n ∈ new) (h : o.start = n.start) :
      Listed old new ⟨replacedOutcome old o n, n.start, some (.ofItem o), some (.ofItem n)⟩
  /-- No new variable starts where an old one started, be its first byte dirty or covered. -/
  | removed {o} (ho : o ∈ old) (h : ∀ n ∈ new, n.start ≠ o.start) :
      Listed old new ⟨.removed, o.start, some (.ofItem o), none⟩
  /-- A new variable starts where no old one did. -/
  | fresh {n} (hn : n ∈ new) (h : ∀ o ∈ old, o.start ≠ n.start) :
      Listed old new ⟨freshOutcome old n, n.start, none, some (.ofItem n)⟩
  /-- What is left of an old variable above a new one, up to the next new one. -/
  | dirtyRun {o s stop} (hs : DirtyRunStart old new s) (ho : o ∈ old) (hos : o.range.Covers s)
      (hstop : IsLeast {q | q = o.stop ∨ ∃ n ∈ new, n.start = q ∧ s < q} stop) :
      Listed old new ⟨.dirtyByteRun, s, none, some (.ofDirty ⟨s, stop⟩)⟩

variable {old new : Layout} {parts : List Part} {o n : Item} {f : Finding}

theorem Layout.containsIdentical_iff {l : Layout} {i : Item} :
    l.containsIdentical i = true ↔ ∃ p ∈ l, p.Identical i := by
  simp [containsIdentical]

theorem Layout.overlaps_iff {l : Layout} {r : ByteRange} (hl : l.WellFormed)
    (hr : r.start < r.stop) : l.overlaps r = true ↔ ∃ p ∈ l, p.range.Meets r := by
  rw [overlaps, List.any_eq_true]
  exact exists_congr fun p => and_congr_right fun hp =>
    ByteRange.overlaps_iff_meets (hl.pos hp) hr

theorem ofReplacement_eq (o n : Item) (old : Layout) :
    Classification.ofReplacement n o old = replacedOutcome old o n := by
  simp only [Classification.ofReplacement, replacedOutcome, Layout.containsIdentical_iff]

theorem ofFresh_eq (ho : old.WellFormed) (hn : n.start < n.stop) :
    Classification.ofFresh n old = freshOutcome old n := by
  unfold Classification.ofFresh freshOutcome
  simp only [← Layout.containsIdentical_iff, ← Layout.overlaps_iff (r := n.range) ho hn]
  cases old.overlaps n.range <;> cases old.containsIdentical n <;> rfl

theorem ofReplacement_ne (n o : Item) (old : Layout) :
    Classification.ofReplacement n o old ≠ .dirtyByteRun ∧
      Classification.ofReplacement n o old ≠ .removed := by
  unfold Classification.ofReplacement
  split_ifs <;> simp

theorem ofFresh_ne (n : Item) (old : Layout) :
    Classification.ofFresh n old ≠ .dirtyByteRun ∧ Classification.ofFresh n old ≠ .removed := by
  unfold Classification.ofFresh
  split <;> simp

/-- Above the end of a new variable bytes are free unless the next variable starts there. -/
theorem not_covers_stop (hnew : new.WellFormed) (hn : n ∈ new)
    (h : ∀ m ∈ new, m.start ≠ n.stop) : ¬ new.Covers n.stop := by
  rintro ⟨m, hm, hc⟩
  have hpos := hnew.pos hn
  have hne : m.start ≠ n.stop := h m hm
  have hmn : m ≠ n := by
    rintro rfl
    grind
  have := hnew.apart hm hn hmn
  grind

theorem not_covers_iff_start_ne (hnew : new.WellFormed) {s : Position} (hn : n ∈ new)
    (hs : n.stop = s) : ¬ new.Covers s ↔ ∀ m ∈ new, m.start ≠ s := by
  subst hs
  refine ⟨fun h m hm heq => h ⟨m, hm, heq ▸ hnew.covers_start hm⟩, not_covers_stop hnew hn⟩

theorem findingOfRow_start {row : Aligned Part × Aligned Item}
    (h : findingOfRow old row = .ok f) : f.start = Alignment.rowStart row := by
  obtain ⟨(_ | _) | _, _ | _⟩ := row <;> cases h <;> rfl

/-- Every row of the overlay with the old layout has a finding of the listing. -/
theorem listed_of_row (ho : old.WellFormed) (hn : new.WellFormed)
    (hparts : overlay old new = some parts) {row : Aligned Part × Aligned Item}
    (hrow : Alignment.Row parts old row) :
    ∃ f, findingOfRow old row = .ok f ∧ Listed old new f := by
  cases hrow with
  | @both p o hp ho' h =>
    cases p with
    | item n =>
      have hn' := (item_mem_overlay ho hn hparts).1 hp
      refine ⟨_, rfl, ?_⟩
      rw [ofReplacement_eq]
      exact .replaced ho' hn' h.symm
    | dirty r =>
      obtain ⟨_, _, hpiece⟩ := (dirty_mem_overlay ho hn hparts).1 hp
      have hr : r.start = o.start := h
      refine ⟨_, rfl, hr ▸ .removed ho' fun n hn' heq => ?_⟩
      exact hpiece.free ⟨n, hn', hr ▸ heq ▸ hn.covers_start hn'⟩
  | @overlayOnly p hp h =>
    cases p with
    | item n =>
      have hn' := (item_mem_overlay ho hn hparts).1 hp
      refine ⟨_, rfl, ?_⟩
      rw [ofFresh_eq ho (hn.pos hn')]
      exact .fresh hn' h
    | dirty r =>
      obtain ⟨o, ho', hpiece⟩ := (dirty_mem_overlay ho hn hparts).1 hp
      have hne : o.start ≠ r.start := h o ho'
      obtain ⟨n, hn', hstop⟩ := hpiece.opens.resolve_left hne.symm
      have hrun : DirtyRunStart old new r.start := by
        refine ⟨⟨n, hn', hstop⟩, ⟨o, ho', ?_, hpiece.inside.2⟩, ?_⟩
        · exact lt_of_le_of_ne hpiece.inside.1 hne
        · exact (not_covers_iff_start_ne hn hn' hstop).1 hpiece.free
      refine ⟨_, rfl, .dirtyRun hrun ho' hpiece.inside ?_⟩
      rw [hpiece.stops]
      exact Layout.isLeast_runStop new r.start o.stop
  | @oldOnly o ho' h =>
    refine ⟨_, rfl, .removed ho' fun n hn' => ?_⟩
    exact h (.item n) ((item_mem_overlay ho hn hparts).2 hn')

/-- Every finding of the listing stands in a row. -/
theorem exists_row_of_listed (ho : old.WellFormed) (hn : new.WellFormed)
    (hparts : overlay old new = some parts) (h : Listed old new f) :
    ∃ row, Alignment.Row parts old row ∧ findingOfRow old row = .ok f := by
  cases h with
  | @replaced o n ho' hn' h =>
    refine ⟨_, .both ((item_mem_overlay ho hn hparts).2 hn') ho' h.symm, ?_⟩
    rw [← ofReplacement_eq]
    rfl
  | @removed o ho' h =>
    by_cases hp : ∃ p ∈ parts, p.start = o.start
    · obtain ⟨p, hp, hstart⟩ := hp
      cases p with
      | item n => exact absurd hstart (h n ((item_mem_overlay ho hn hparts).1 hp))
      | dirty r =>
        have hr : r.start = o.start := hstart
        exact ⟨_, .both hp ho' hstart, by rw [← hr]; rfl⟩
    · exact ⟨_, .oldOnly ho' fun p hp' hstart => hp ⟨p, hp', hstart⟩, rfl⟩
  | @fresh n hn' h =>
    refine ⟨_, .overlayOnly ((item_mem_overlay ho hn hparts).2 hn') h, ?_⟩
    rw [← ofFresh_eq ho (hn.pos hn')]
    rfl
  | @dirtyRun o s stop hs ho' hos hstop =>
    obtain ⟨⟨n, hn', hns⟩, ⟨o', ho'', hlo, hhi⟩, hfree⟩ := hs
    have hoo : o' = o := ho.eq_of_covers ho'' ho' ⟨hlo.le, hhi⟩ hos
    subst hoo
    have hpiece : o'.range.IsPiece new ⟨s, stop⟩ :=
      ⟨hos, (not_covers_iff_start_ne hn hn' hns).2 hfree, .inr ⟨n, hn', hns⟩,
        hstop.unique (Layout.isLeast_runStop new s o'.stop)⟩
    refine ⟨_, .overlayOnly ((dirty_mem_overlay ho hn hparts).2 ⟨o', ho', hpiece⟩) ?_, rfl⟩
    intro p hp heq
    have hps : p.start = s := heq
    have hpo : p = o' := ho.eq_of_covers hp ho' (hps ▸ ho.covers_start hp) hos
    subst hpo
    exact hlo.ne hps

/-- A position has a finding in the listing when it has a row. -/
theorem exists_listed_iff {s : Position} :
    (∃ f, Listed old new f ∧ f.start = s) ↔ HasRow old new s := by
  constructor
  · rintro ⟨f, ⟨ho, hn, h⟩ | ⟨ho, h⟩ | ⟨hn, h⟩ | ⟨hs, ho, hos, hstop⟩, rfl⟩
    · exact .inr (.inl ⟨_, hn, rfl⟩)
    · exact .inl ⟨_, ho, rfl⟩
    · exact .inr (.inl ⟨_, hn, rfl⟩)
    · exact .inr (.inr hs)
  · intro h
    by_cases hold : ∃ o ∈ old, o.start = s <;> by_cases hnew : ∃ n ∈ new, n.start = s
    · obtain ⟨o, ho, rfl⟩ := hold
      obtain ⟨n, hn, heq⟩ := hnew
      exact ⟨_, .replaced ho hn heq.symm, heq⟩
    · obtain ⟨o, ho, rfl⟩ := hold
      exact ⟨_, .removed ho fun n hn heq => hnew ⟨n, hn, heq⟩, rfl⟩
    · obtain ⟨n, hn, rfl⟩ := hnew
      exact ⟨_, .fresh hn fun o ho heq => hold ⟨o, ho, heq⟩, rfl⟩
    · have hs : DirtyRunStart old new s := (h.resolve_left hold).resolve_left hnew
      obtain ⟨o, ho, hlo, hhi⟩ := hs.2.1
      exact ⟨_, .dirtyRun hs ho ⟨hlo.le, hhi⟩ (Layout.isLeast_runStop new s o.stop), rfl⟩

/-- The findings are those listed, in the order of the bytes. -/
structure IsListing (old new : Layout) (fs : List Finding) : Prop where
  ascending : fs.Pairwise fun f g => f.start < g.start
  mem_iff : ∀ f, f ∈ fs ↔ Listed old new f
  hasRow_iff : ∀ s, (∃ f ∈ fs, f.start = s) ↔ HasRow old new s

namespace IsListing

variable {fs : List Finding}

theorem nodup_starts (hfs : IsListing old new fs) : (fs.map Finding.start).Nodup :=
  List.pairwise_map.2 (hfs.ascending.imp ne_of_lt)

/-- Different findings have different starts. -/
theorem eq_of_start (hfs : IsListing old new fs) {g : Finding} (hf : f ∈ fs) (hg : g ∈ fs)
    (h : f.start = g.start) : f = g :=
  List.inj_on_of_nodup_map hfs.nodup_starts hf hg h

/-- A finding starts with an old variable, or where a new one starts or ends. -/
theorem length_le (hfs : IsListing old new fs) : fs.length ≤ old.length + 2 * new.length := by
  have hsub : fs.map Finding.start ⊆
      old.map Item.start ++ (new.map Item.start ++ new.map Item.stop) := by
    intro s hs
    simp only [List.mem_append, List.mem_map]
    rcases (hfs.hasRow_iff s).1 (List.mem_map.1 hs) with hrow | hrow | ⟨hrow, _, _⟩
    · exact .inl hrow
    · exact .inr (.inl hrow)
    · exact .inr (.inr hrow)
  have hle := (hfs.nodup_starts.subperm hsub).length_le
  simp only [List.length_append, List.length_map] at hle
  omega

end IsListing

/-- The stages of a comparison succeed, and the findings are those of the aligned rows. -/
theorem exists_alignment (ho : old.WellFormed) (hn : new.WellFormed) (hne : old ≠ new)
    (hparts : overlay old new = some parts) :
    ∃ (a : Alignment) (fs : List Finding),
      a.Exact parts old ∧ a.rows.mapM (findingOfRow old) = .ok fs ∧
      compareLayouts old new = some (.ok (.ofFindings fs (dirtyByteCount parts))) := by
  have hstarts : (parts.map Part.start).Nodup := by
    have hasc := (overlay_ascending ho hn hparts).starts
    rw [List.map_map] at hasc
    exact hasc.imp ne_of_lt
  obtain ⟨a, halign, hexact⟩ := Alignment.exists_align hstarts ho.nodup_starts
  obtain ⟨fs, hfs⟩ : ∃ fs, a.rows.mapM (findingOfRow old) = .ok fs := by
    refine exists_mapM_ok fun row hrow => ?_
    obtain ⟨f, hf, _⟩ := listed_of_row ho hn hparts ((hexact.mem_rows row).1 hrow)
    exact ⟨f, hf⟩
  refine ⟨a, fs, hexact, hfs, ?_⟩
  have hclassify : classify a old = .ok fs := by rw [classify, if_pos hexact.length_eq, hfs]
  rw [compareLayouts, if_neg hne, hparts]
  simp only [Option.map_some, halign, hclassify, bind, Except.bind]
  rfl

theorem isListing_of_rows (ho : old.WellFormed) (hn : new.WellFormed)
    (hparts : overlay old new = some parts) {a : Alignment} {fs : List Finding}
    (ha : a.Exact parts old) (hfs : a.rows.mapM (findingOfRow old) = .ok fs) :
    IsListing old new fs := by
  have hmem : ∀ f, f ∈ fs ↔ Listed old new f := by
    intro f
    rw [mem_of_mapM_ok hfs]
    constructor
    · rintro ⟨row, hrow, hf⟩
      obtain ⟨g, hg, hlisted⟩ := listed_of_row ho hn hparts ((ha.mem_rows row).1 hrow)
      exact Except.ok.inj (hf.symm.trans hg) ▸ hlisted
    · intro hf
      obtain ⟨row, hrow, hf⟩ := exists_row_of_listed ho hn hparts hf
      exact ⟨row, (ha.mem_rows row).2 hrow, hf⟩
  have hstarts : fs.map Finding.start = a.rows.map Alignment.rowStart :=
    map_eq_of_mapM_ok hfs fun _ _ _ hf => findingOfRow_start hf
  refine ⟨List.pairwise_map.1 (hstarts ▸ ha.ascending), hmem, fun s => ?_⟩
  rw [← exists_listed_iff]
  simp only [hmem]

theorem exists_listing (ho : old.WellFormed) (hn : new.WellFormed) (hne : old ≠ new) :
    ∃ parts fs, overlay old new = some parts ∧ IsListing old new fs ∧
      compareLayouts old new = some (.ok (.ofFindings fs (dirtyByteCount parts))) := by
  obtain ⟨parts, hparts⟩ := exists_overlay old hn.1
  obtain ⟨a, fs, ha, hfs, hcmp⟩ := exists_alignment ho hn hne hparts
  exact ⟨parts, fs, hparts, isListing_of_rows ho hn hparts ha hfs, hcmp⟩

/-- Comparing two different well-formed layouts succeeds, and its findings are the listing. -/
theorem compareLayouts_listing (ho : old.WellFormed) (hn : new.WellFormed) (hne : old ≠ new) :
    ∃ c, compareLayouts old new = some (.ok c) ∧ IsListing old new c.findings := by
  obtain ⟨_, fs, _, hfs, hcmp⟩ := exists_listing ho hn hne
  exact ⟨_, hcmp, by rwa [Comparison.findings_ofFindings]⟩

/-- A variable stored in place, with its slot and offset derived from its first byte. -/
def Item.inplace (label typeLabel : String) (start size : Position) : Item :=
  ⟨label, start, start + size, ⟨typeLabel, "inplace", size, []⟩, start / Position.slotSize,
    UInt64.ofNat (start % Position.slotSize)⟩

/-- A total over a slot, and a cap in half a slot after it. -/
def Layout.sampleBefore : Layout :=
  [.inplace "total" "uint256" 0 32, .inplace "cap" "uint128" 32 16]

/-- The total keeps half its bytes, and the cap moves up by half its size. -/
def Layout.sampleAfter : Layout :=
  [.inplace "total" "uint128" 0 16, .inplace "cap" "uint128" 40 16]

/-- One row of each kind: replaced at 0, dirty from 16, removed at 32 and fresh at 40. -/
theorem compareLayouts_listing_four_kinds :
    ∃ c, compareLayouts .sampleBefore .sampleAfter = some (.ok c) ∧
      IsListing .sampleBefore .sampleAfter c.findings :=
  compareLayouts_listing (by decide) (by decide) (by decide)

end StorageUpgrade
