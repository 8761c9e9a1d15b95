import StorageUpgrade.Proofs.Listing

/-!
# The overlay as a canonical form

An overlay has all variables of the new layout and, of each old variable, the maximal ranges of
bytes that the new layout leaves free. Two layouts have one overlay only, and the sweep finds it.
Every byte of either layout lies in one part, and no other byte lies in any.
-/
namespace StorageUpgrade

open Overlay

namespace ByteRange

variable {r q t : ByteRange} {l : Layout} {p : Position}

/-- Bytes of `r` in a row of which the layout covers none. -/
structure IsFree (r : ByteRange) (l : Layout) (q : ByteRange) : Prop where
  pos : q.start < q.stop
  within : q.Within r
  free : ∀ p, q.Covers p → ¬ l.Covers p

/-- A free range that is contained in no other one. -/
structure IsMaximalFree (r : ByteRange) (l : Layout) (q : ByteRange) : Prop
    extends IsFree r l q where
  maximal : ∀ t, r.IsFree l t → q.Within t → t = q

/-- From a free byte on, the bytes are free up to the end of the run. -/
theorem isFree_run (hp : r.Covers p) (hfree : ¬ l.Covers p) :
    r.IsFree l ⟨p, l.runStop p r.stop⟩ where
  pos := by
    rcases (l.isLeast_runStop p r.stop).1 with heq | ⟨i, _, _, hlt⟩
    · exact hp.2.trans_eq heq.symm
    · exact hlt
  within := ⟨hp.1, l.runStop_le p r.stop⟩
  free := by
    rintro s ⟨hps, hs⟩ ⟨i, hi, hlo, hhi⟩
    rcases le_or_gt i.start p with hip | hip
    · exact hfree ⟨i, hi, hip, hps.trans_lt hhi⟩
    · have hrun : l.runStop p r.stop ≤ i.start :=
        (l.isLeast_runStop p r.stop).2 (.inr ⟨i, hi, rfl, hip⟩)
      exact absurd hlo (not_le.2 (hs.trans_le hrun))

/-- No free range goes on above the end of its run. -/
theorem IsFree.stop_le_runStop (h : r.IsFree l q) (hl : ∀ i ∈ l, i.start < i.stop) :
    q.stop ≤ l.runStop q.start r.stop := by
  rcases (l.isLeast_runStop q.start r.stop).1 with heq | ⟨i, hi, heq, hlt⟩
  · exact h.within.2.trans_eq heq.symm
  · rw [← heq] at hlt ⊢
    by_contra hin
    exact h.free i.start ⟨hlt.le, not_le.1 hin⟩ ⟨i, hi, le_rfl, hl i hi⟩

theorem isFree_byte (hp : r.Covers p) (hfree : ¬ l.Covers p) : r.IsFree l ⟨p, p + 1⟩ where
  pos := Nat.lt_succ_self p
  within := ⟨hp.1, hp.2⟩
  free := by
    rintro s ⟨hlo, hhi⟩
    obtain rfl : s = p := le_antisymm (Nat.le_of_lt_succ hhi) hlo
    exact hfree

/-- Two free ranges that touch are one. -/
theorem IsFree.join (hq : r.IsFree l q) (ht : r.IsFree l t) (h : q.stop = t.start) :
    r.IsFree l ⟨q.start, t.stop⟩ where
  pos := hq.pos.trans (h ▸ ht.pos)
  within := ⟨hq.within.1, ht.within.2⟩
  free := by
    rintro p ⟨hlo, hhi⟩
    rcases lt_or_ge p q.stop with hp | hp
    · exact hq.free p ⟨hlo, hp⟩
    · exact ht.free p ⟨h ▸ hp, hhi⟩

namespace IsMaximalFree

theorem starts_at (h : r.IsMaximalFree l q) : q.start = r.start ∨ ∃ i ∈ l, i.stop = q.start := by
  rcases eq_or_lt_of_le h.within.1 with heq | hlt
  · exact .inl heq.symm
  · -- Joined with a free byte below it the range would be larger.
    obtain ⟨p, hp⟩ : ∃ p, q.start = p + 1 := Nat.exists_eq_succ_of_ne_zero (Nat.ne_zero_of_lt hlt)
    have hpos := h.pos
    have hstop := h.within.2
    have hbelow : l.Covers p := by
      by_contra hfree
      have hbyte : r.IsFree l ⟨p, p + 1⟩ := isFree_byte ⟨by lia, by lia⟩ hfree
      have heq := h.maximal _ (hbyte.join h.toIsFree hp.symm) ⟨by lia, le_rfl⟩
      have hstart : p = q.start := congrArg start heq
      lia
    obtain ⟨i, hi, hlo, hhi⟩ := hbelow
    have hfree : ¬ i.range.Covers q.start := fun hc => h.free _ ⟨le_rfl, hpos⟩ ⟨i, hi, hc⟩
    exact .inr ⟨i, hi, by grind⟩

/-- A maximal free range takes up the whole run of its first byte. -/
theorem stop_eq (h : r.IsMaximalFree l q) (hl : ∀ i ∈ l, i.start < i.stop) :
    q.stop = l.runStop q.start r.stop := by
  have hfirst : q.Covers q.start := ⟨le_rfl, h.pos⟩
  have hrun := isFree_run (h.within.covers hfirst) (h.free _ hfirst)
  have heq := h.maximal _ hrun ⟨le_rfl, h.stop_le_runStop hl⟩
  exact (congrArg stop heq).symm

theorem stops_at (h : r.IsMaximalFree l q) (hl : ∀ i ∈ l, i.start < i.stop) :
    q.stop = r.stop ∨ ∃ i ∈ l, i.start = q.stop := by
  rw [h.stop_eq hl]
  exact (l.isLeast_runStop q.start r.stop).1.imp_right fun ⟨i, hi, heq, _⟩ => ⟨i, hi, heq⟩

/-- Two maximal free ranges do not touch. -/
theorem stop_ne_start (hq : r.IsMaximalFree l q) (ht : r.IsMaximalFree l t) :
    q.stop ≠ t.start := by
  intro heq
  have hjoined := hq.maximal _ (hq.join ht.toIsFree heq) ⟨le_rfl, (heq ▸ ht.pos).le⟩
  have hstop : (ByteRange.mk q.start t.stop).stop = q.stop := congrArg stop hjoined
  exact ht.pos.ne (heq.symm.trans hstop.symm)

end IsMaximalFree

theorem IsPiece.isFree (h : r.IsPiece l q) : r.IsFree l q := by
  have hrun := isFree_run h.inside h.free
  rwa [← h.stops] at hrun

theorem IsPiece.isMaximalFree (h : r.IsPiece l q) (hl : ∀ i ∈ l, i.start < i.stop) :
    r.IsMaximalFree l q := by
  refine ⟨h.isFree, fun t ht hqt => ?_⟩
  have hstart : t.start = q.start := by
    refine le_antisymm hqt.1 ?_
    rcases h.opens with heq | ⟨i, hi, heq⟩
    · exact heq ▸ ht.within.1
    · -- A range that begins lower takes in the last byte of the variable.
      by_contra hlt
      have := hl i hi
      have := h.isFree.pos
      have := hqt.2
      exact ht.free (q.start - 1) (by grind) ⟨i, hi, by grind⟩
  have hle : t.stop ≤ q.stop := by
    rw [h.stops, ← hstart]
    exact ht.stop_le_runStop hl
  cases t
  cases q
  exact congrArg₂ ByteRange.mk hstart (le_antisymm hle hqt.2)

/-- The maximal free ranges are the pieces. -/
theorem isMaximalFree_iff_isPiece (hl : ∀ i ∈ l, i.start < i.stop) :
    r.IsMaximalFree l q ↔ r.IsPiece l q := by
  refine ⟨fun h => ?_, fun h => h.isMaximalFree hl⟩
  have hfirst : q.Covers q.start := ⟨le_rfl, h.pos⟩
  exact ⟨h.within.covers hfirst, h.free _ hfirst, h.starts_at, h.stop_eq hl⟩

/-- Of ranges that follow one another at most one covers a byte. -/
theorem Ascending.countP_covers {rs : List ByteRange} (h : Ascending rs) (p : Position) :
    (rs.countP fun r => r.Covers p) = if ∃ r ∈ rs, r.Covers p then 1 else 0 := by
  induction rs with
  | nil => simp
  | cons r rs ih =>
    obtain ⟨hr, hlater, htail⟩ := ascending_cons.1 h
    rw [List.countP_cons, ih htail]
    by_cases hp : r.Covers p
    · have hnone : ¬ ∃ q ∈ rs, q.Covers p := by
        rintro ⟨q, hq, hqp⟩
        have := hlater q hq
        grind
      simp [hp, hnone]
    · simp [hp]

end ByteRange

variable {old new : Layout} {parts ps qs : List Part} {o : Item} {q r : ByteRange}

namespace Overlay

/-- What makes a list of parts an overlay of two layouts. -/
structure IsOverlay (old new : Layout) (parts : List Part) : Prop where
  starts : parts.Pairwise fun a b => a.start < b.start
  apart : parts.Pairwise fun a b => a.range.stop ≤ b.range.start
  items : parts.filterMap Part.item? = new
  dirty : ∀ r, .dirty r ∈ parts ↔ ∃ o ∈ old, o.range.IsMaximalFree new r

/-- Two layouts do not have two overlays. -/
theorem IsOverlay.unique (hp : IsOverlay old new ps) (hq : IsOverlay old new qs) : ps = qs := by
  have hmem : ∀ part, part ∈ ps ↔ part ∈ qs := by
    rintro (n | r)
    · rw [← Part.mem_filterMap_item?, ← Part.mem_filterMap_item?, hp.items, hq.items]
    · rw [hp.dirty, hq.dirty]
  exact hp.starts.eq_of_mem_iff hq.starts hmem

/-- A dirty part and the old variable that it is cut from. -/
structure IsCut (new : Layout) (parts : List Part) (o : Item) (r : ByteRange) : Prop where
  within : r.Within o.range
  starts_at : r.start = o.start ∨ ∃ n ∈ new, n.stop = r.start
  stops_at : r.stop = o.stop ∨ ∃ n ∈ new, n.start = r.stop
  /-- No other dirty part of the variable goes on where this one stops. -/
  apart : ∀ q, .dirty q ∈ parts → q.Within o.range → r.stop ≠ q.start

end Overlay

section WellFormed

variable (ho : old.WellFormed) (hn : new.WellFormed) (hparts : overlay old new = some parts)

include ho hn hparts

theorem isOverlay_overlay : IsOverlay old new parts where
  starts := by
    have h := (overlay_ascending ho hn hparts).starts
    rw [List.map_map] at h
    exact List.pairwise_map.1 h
  apart := List.pairwise_map.1 (overlay_ascending ho hn hparts).2
  items := (emits_overlay ho hn hparts).items
  dirty r := by
    simp only [ByteRange.isMaximalFree_iff_isPiece hn.1]
    exact dirty_mem_overlay ho hn hparts

/-- A dirty part that holds a byte of an old variable is cut from it and from no other one. -/
theorem isMaximalFree_of_meets (hmem : o ∈ old) (hr : .dirty r ∈ parts)
    (hmeets : r.Meets o.range) : o.range.IsMaximalFree new r := by
  obtain ⟨o', ho', hmax⟩ := ((isOverlay_overlay ho hn hparts).dirty r).1 hr
  obtain ⟨p, hrp, hop⟩ := hmeets
  obtain rfl := ho.eq_of_covers ho' hmem (hmax.within.covers hrp) hop
  exact hmax

theorem isCut_of_meets (hmem : o ∈ old) (hr : .dirty r ∈ parts) (hmeets : r.Meets o.range) :
    IsCut new parts o r := by
  have hmax := isMaximalFree_of_meets ho hn hparts hmem hr hmeets
  refine ⟨hmax.within, hmax.starts_at, hmax.stops_at hn.1, fun q hq hqo => ?_⟩
  have hpos : q.start < q.stop :=
    (overlay_ascending ho hn hparts).1 q (List.mem_map_of_mem (f := Part.range) hq)
  have hqmeets : q.Meets o.range := ⟨q.start, ⟨le_rfl, hpos⟩, hqo.covers ⟨le_rfl, hpos⟩⟩
  exact hmax.stop_ne_start (isMaximalFree_of_meets ho hn hparts hmem hq hqmeets)

/-- The parts hold the bytes of both layouts. -/
theorem covers_overlay_iff (p : Position) :
    (∃ part ∈ parts, part.range.Covers p) ↔ old.Covers p ∨ new.Covers p := by
  constructor
  · rintro ⟨n | r, hmem, hp⟩
    · exact .inr ⟨n, (item_mem_overlay ho hn hparts).1 hmem, hp⟩
    · obtain ⟨o, hmem, hmax⟩ := ((isOverlay_overlay ho hn hparts).dirty r).1 hmem
      exact .inl ⟨o, hmem, hmax.within.covers hp⟩
  · intro h
    by_cases hnew : new.Covers p
    · obtain ⟨n, hmem, hp⟩ := hnew
      exact ⟨.item n, (item_mem_overlay ho hn hparts).2 hmem, hp⟩
    · obtain ⟨o, hmem, hop⟩ := h.resolve_right hnew
      obtain ⟨r, hr, hp⟩ := (ByteRange.covers_uncovered hn).2 ⟨hop, hnew⟩
      have hpiece := (ByteRange.mem_uncovered (ho.pos hmem) hn).1 hr
      exact ⟨.dirty r, (dirty_mem_overlay ho hn hparts).2 ⟨o, hmem, hpiece⟩, hp⟩

end WellFormed

/-- The overlay of two well-formed layouts is the one list of parts that is an overlay. Each of its
dirty parts is cut from a single old variable, and each byte of either layout lies in one part. -/
theorem overlay_canonical (ho : old.WellFormed) (hn : new.WellFormed) :
    ∃ parts, overlay old new = some parts ∧
      (∀ ps, IsOverlay old new ps ↔ ps = parts) ∧
      (∀ r, .dirty r ∈ parts → ∀ o ∈ old, r.Meets o.range → IsCut new parts o r) ∧
      ∀ p, (parts.countP fun part => part.range.Covers p) =
        if old.Covers p ∨ new.Covers p then 1 else 0 := by
  obtain ⟨parts, hparts⟩ := exists_overlay old hn.1
  have hover := isOverlay_overlay ho hn hparts
  refine ⟨parts, hparts, fun ps => ⟨fun h => h.unique hover, fun h => h ▸ hover⟩, ?_, fun p => ?_⟩
  · intro r hr o hmem hmeets
    exact isCut_of_meets ho hn hparts hmem hr hmeets
  · have hcount := (overlay_ascending ho hn hparts).countP_covers p
    simp only [List.countP_map, List.mem_map, exists_exists_and_eq_and,
      covers_overlay_iff ho hn hparts] at hcount
    exact hcount

/-- What is left of the total ends where the cap began, and the two are not joined. -/
theorem overlay_canonical_sample :
    ∃ parts, overlay Layout.sampleBefore Layout.sampleAfter = some parts ∧
      parts = [.item (.inplace "total" "uint128" 0 16), .dirty ⟨16, 32⟩, .dirty ⟨32, 40⟩,
        .item (.inplace "cap" "uint128" 40 16)] ∧
      IsOverlay .sampleBefore .sampleAfter parts ∧
      IsCut .sampleAfter parts (.inplace "cap" "uint128" 32 16) ⟨32, 40⟩ ∧
      (parts.countP fun part => part.range.Covers 36) = 1 := by
  obtain ⟨parts, hparts, hunique, hcut, hcount⟩ := overlay_canonical
    (show Layout.sampleBefore.WellFormed by decide) (show Layout.sampleAfter.WellFormed by decide)
  have hcomputed : parts = [.item (.inplace "total" "uint128" 0 16), .dirty ⟨16, 32⟩,
      .dirty ⟨32, 40⟩, .item (.inplace "cap" "uint128" 40 16)] := by
    rw [overlay_eq_of_emittedWithin 7 rfl] at hparts
    exact (Option.some.inj hparts).symm
  have hmem : .dirty ⟨32, 40⟩ ∈ parts := by
    rw [hcomputed]
    decide
  refine ⟨parts, hparts, hcomputed, (hunique parts).2 rfl, hcut ⟨32, 40⟩ hmem _ ?_ ?_, ?_⟩
  · decide
  · decide
  · rw [hcount 36, if_pos (by decide)]

end StorageUpgrade
