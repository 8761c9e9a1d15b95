import Mathlib.Order.Bounds.Basic
import StorageUpgrade.Proofs.Bytes

/-!
# What a layout leaves uncovered of a range

A range is cut by the variables of a layout into the maximal runs of bytes that none of them covers.
Each piece begins where the range begins or where a variable ends, and it stops at the next variable
above its first byte, or with the range. Pieces of different ranges are never joined.
-/
namespace StorageUpgrade

namespace Layout

variable {l : Layout} {i : Item} {p q stop : Position}

/-- Where a run of free bytes from `p` ends: at the next variable above `p`, or at `stop`. -/
def runStop (l : Layout) (p stop : Position) : Position :=
  ((l.map Item.start).filter (p < ·)).foldr min stop

@[simp] theorem runStop_nil (p stop : Position) : runStop [] p stop = stop := rfl

@[grind =] theorem runStop_cons (i : Item) (l : Layout) (p stop : Position) :
    runStop (i :: l) p stop =
      if p < i.start then min i.start (runStop l p stop) else runStop l p stop := by
  by_cases h : p < i.start <;> simp [runStop, h]

/-- The end of a run is the least candidate. -/
theorem isLeast_runStop (l : Layout) (p stop : Position) :
    IsLeast {q | q = stop ∨ ∃ i ∈ l, i.start = q ∧ p < q} (runStop l p stop) := by
  induction l with
  | nil => simp
  | cons i l ih =>
    rw [runStop_cons]
    split_ifs with hp
    · have hset : {q | q = stop ∨ ∃ j ∈ i :: l, j.start = q ∧ p < q} =
          insert i.start {q | q = stop ∨ ∃ j ∈ l, j.start = q ∧ p < q} := by
        ext q
        simp
        grind
      exact hset ▸ ih.insert i.start
    · have hset : {q | q = stop ∨ ∃ j ∈ i :: l, j.start = q ∧ p < q} =
          {q | q = stop ∨ ∃ j ∈ l, j.start = q ∧ p < q} := by
        ext q
        simp
        grind
      exact hset ▸ ih

theorem runStop_le (l : Layout) (p stop : Position) : runStop l p stop ≤ stop :=
  (isLeast_runStop l p stop).2 (Or.inl rfl)

theorem le_runStop (hstop : q ≤ stop) (h : ∀ i ∈ l, q ≤ i.start) : q ≤ runStop l p stop := by
  rcases (isLeast_runStop l p stop).1 with heq | ⟨i, hi, heq, _⟩
  · lia
  · exact heq ▸ h i hi

end Layout

namespace ByteRange

variable {r q : ByteRange} {n : Item} {ns : Layout} {p : Position}

/-- The pieces of the range outside the variables, which ascend. -/
def uncovered (r : ByteRange) : List Item → List ByteRange
  | [] => [r]
  | n :: ns =>
    if n.stop ≤ r.start then uncovered r ns
    else if r.stop ≤ n.start then [r]
    else
      (if r.start < n.start then [⟨r.start, n.start⟩] else []) ++
        if n.stop < r.stop then uncovered ⟨n.stop, r.stop⟩ ns else []

/-- A maximal run of bytes of the range that no variable covers. -/
structure IsPiece (r : ByteRange) (ns : Layout) (q : ByteRange) : Prop where
  inside : r.Covers q.start
  free : ¬ ns.Covers q.start
  opens : q.start = r.start ∨ ∃ n ∈ ns, n.stop = q.start
  stops : q.stop = Layout.runStop ns q.start r.stop

theorem uncovered_of_stop_le (h : n.stop ≤ r.start) :
    r.uncovered (n :: ns) = r.uncovered ns := by
  simp [uncovered, h]

theorem uncovered_of_le_start (hr : r.start < r.stop) (hn : n.start < n.stop)
    (h : r.stop ≤ n.start) : r.uncovered (n :: ns) = [r] := by
  have : ¬ n.stop ≤ r.start := by lia
  simp [uncovered, this, h]

theorem uncovered_of_meets (hlo : r.start < n.stop) (hhi : n.start < r.stop) :
    r.uncovered (n :: ns) =
      (if r.start < n.start then [⟨r.start, n.start⟩] else []) ++
        if n.stop < r.stop then uncovered ⟨n.stop, r.stop⟩ ns else [] := by
  rw [uncovered, if_neg (not_le.2 hlo), if_neg (not_le.2 hhi)]

/-- A variable below the range has no part in its pieces. -/
theorem isPiece_cons_of_stop_le (hn : n.start < n.stop) (h : n.stop ≤ r.start) :
    r.IsPiece (n :: ns) q ↔ r.IsPiece ns q := by
  constructor
  · rintro ⟨hin, hfree, hopen, hstop⟩
    refine ⟨hin, fun hc => hfree (Layout.covers_cons.2 (.inr hc)), ?_, ?_⟩
    · rcases hopen with heq | ⟨m, hm, heq⟩
      · exact .inl heq
      · rcases List.mem_cons.1 hm with rfl | hm
        · exact .inl (le_antisymm (heq ▸ h) hin.1)
        · exact .inr ⟨m, hm, heq⟩
    · rw [hstop, Layout.runStop_cons, if_neg (by grind)]
  · rintro ⟨hin, hfree, hopen, hstop⟩
    refine ⟨hin, fun hc => ?_, ?_, ?_⟩
    · rcases Layout.covers_cons.1 hc with hc | hc
      · grind
      · exact hfree hc
    · exact hopen.imp_right fun ⟨m, hm, heq⟩ => ⟨m, .tail _ hm, heq⟩
    · rw [hstop, Layout.runStop_cons, if_neg (by grind)]

/-- A range that ends below every variable is its own and only piece. -/
theorem isPiece_iff_eq (hr : r.start < r.stop) (hpos : ∀ n ∈ ns, n.start < n.stop)
    (h : ∀ n ∈ ns, r.stop ≤ n.start) : r.IsPiece ns q ↔ q = r := by
  constructor
  · rintro ⟨hin, hfree, hopen, hstop⟩
    have hstart : q.start = r.start := by
      rcases hopen with heq | ⟨n, hn, heq⟩
      · exact heq
      · have := hpos n hn
        have := h n hn
        grind
    have hle : r.stop ≤ q.stop := hstop ▸ Layout.le_runStop le_rfl h
    have hge : q.stop ≤ r.stop := hstop ▸ Layout.runStop_le ns q.start r.stop
    cases q; cases r
    simp only [mk.injEq] at *
    exact ⟨hstart, le_antisymm hge hle⟩
  · rintro rfl
    refine ⟨⟨le_rfl, hr⟩, ?_, .inl rfl, ?_⟩
    · rintro ⟨n, hn, hc⟩
      have := h n hn
      grind
    · exact le_antisymm (Layout.le_runStop le_rfl h) (Layout.runStop_le ns q.start q.stop)

/-- The first variable cuts the range: one piece may lie below it, the others are those of what is
left above it. -/
theorem isPiece_cons_of_meets (hns : Layout.WellFormed (n :: ns)) (hlo : r.start < n.stop)
    (hhi : n.start < r.stop) :
    r.IsPiece (n :: ns) q ↔
      (r.start < n.start ∧ q = ⟨r.start, n.start⟩) ∨
        (n.stop < r.stop ∧ IsPiece ⟨n.stop, r.stop⟩ ns q) := by
  obtain ⟨hn, hlater, hns⟩ := Layout.wellFormed_cons.1 hns
  constructor
  · rintro ⟨hin, hfree, hopen, hstop⟩
    have hstop' := hstop
    rw [Layout.runStop_cons] at hstop'
    rcases lt_or_ge q.start n.start with hlt | hge
    · left
      have hstart : q.start = r.start := by
        rcases hopen with heq | ⟨m, hm, heq⟩
        · exact heq
        · rcases List.mem_cons.1 hm with rfl | hm
          · lia
          · have := hlater m hm
            have := hns.pos hm
            lia
      have hrest : n.start ≤ Layout.runStop ns q.start r.stop :=
        Layout.le_runStop hhi.le fun m hm => hn.le.trans (hlater m hm)
      rw [if_pos hlt, min_eq_left hrest] at hstop'
      refine ⟨hstart ▸ hlt, ?_⟩
      cases q
      simp_all
    · right
      have habove : n.stop ≤ q.start := by
        have : ¬ n.range.Covers q.start := fun hc => hfree (Layout.covers_cons.2 (.inl hc))
        grind
      rw [if_neg (by lia)] at hstop'
      refine ⟨by grind, ⟨habove, hin.2⟩, fun hc => hfree (Layout.covers_cons.2 (.inr hc)), ?_,
        hstop'⟩
      rcases hopen with heq | ⟨m, hm, heq⟩
      · lia
      · rcases List.mem_cons.1 hm with rfl | hm
        · exact .inl heq.symm
        · exact .inr ⟨m, hm, heq⟩
  · rintro (⟨hlt, rfl⟩ | ⟨hlt, hin, hfree, hopen, hstop⟩)
    · refine ⟨⟨le_rfl, hlt.trans hhi⟩, ?_, .inl rfl, ?_⟩
      · rintro ⟨m, hm, hc⟩
        rcases List.mem_cons.1 hm with rfl | hm
        · grind
        · have := hlater m hm
          grind
      · have hrest : n.start ≤ Layout.runStop ns r.start r.stop :=
          Layout.le_runStop hhi.le fun m hm => hn.le.trans (hlater m hm)
        simp [Layout.runStop_cons, hlt, hrest]
    · have habove : n.stop ≤ q.start := hin.1
      refine ⟨⟨by lia, hin.2⟩, fun hc => ?_, .inr ?_, ?_⟩
      · rcases Layout.covers_cons.1 hc with hc | hc
        · grind
        · exact hfree hc
      · rcases hopen with heq | ⟨m, hm, heq⟩
        · exact ⟨n, .head _, heq.symm⟩
        · exact ⟨m, .tail _ hm, heq⟩
      · rw [hstop, Layout.runStop_cons, if_neg (by lia)]

/-- Cutting yields the maximal runs, all of them and nothing else. -/
theorem mem_uncovered (hr : r.start < r.stop) (hns : ns.WellFormed) :
    q ∈ r.uncovered ns ↔ r.IsPiece ns q := by
  induction ns generalizing r with
  | nil => rw [isPiece_iff_eq hr (by simp) (by simp), uncovered, List.mem_singleton]
  | cons n ns ih =>
    obtain ⟨hn, hlater, htail⟩ := Layout.wellFormed_cons.1 hns
    by_cases hbelow : n.stop ≤ r.start
    · rw [uncovered_of_stop_le hbelow, isPiece_cons_of_stop_le hn hbelow]
      exact ih hr htail
    by_cases habove : r.stop ≤ n.start
    · have hall : ∀ m ∈ n :: ns, r.stop ≤ m.start := by
        intro m hm
        rcases List.mem_cons.1 hm with rfl | hm
        · exact habove
        · have := hlater m hm
          lia
      rw [uncovered_of_le_start hr hn habove, isPiece_iff_eq hr hns.1 hall, List.mem_singleton]
    · have hlo := not_le.1 hbelow
      have hhi := not_le.1 habove
      rw [isPiece_cons_of_meets hns hlo hhi, uncovered_of_meets hlo hhi, List.mem_append]
      refine or_congr ?_ ?_
      · split_ifs with h <;> simp [h]
      · split_ifs with h
        · simpa [h] using ih (r := ⟨n.stop, r.stop⟩) h htail
        · simp [h]

/-- The pieces hold the bytes of the range that no variable occupies. -/
theorem covers_uncovered (hns : ns.WellFormed) :
    (∃ q ∈ r.uncovered ns, q.Covers p) ↔ r.Covers p ∧ ¬ ns.Covers p := by
  induction ns generalizing r with
  | nil => simp [uncovered, Layout.not_covers_nil]
  | cons n ns ih =>
    obtain ⟨hn, hlater, htail⟩ := Layout.wellFormed_cons.1 hns
    rw [Layout.covers_cons, not_or]
    by_cases hbelow : n.stop ≤ r.start
    · rw [uncovered_of_stop_le hbelow, ih htail]
      grind
    have htail_above : Layout.Covers ns p → n.stop ≤ p := by
      rintro ⟨m, hm, hc⟩
      have := hlater m hm
      grind
    by_cases habove : r.stop ≤ n.start
    · simp only [uncovered, if_neg hbelow, if_pos habove, List.mem_singleton, exists_eq_left]
      grind
    · simp only [uncovered_of_meets (not_le.1 hbelow) (not_le.1 habove), List.mem_append,
        or_and_right, exists_or]
      have hleft : (∃ q ∈ if r.start < n.start then [(⟨r.start, n.start⟩ : ByteRange)] else [],
          q.Covers p) ↔ r.Covers p ∧ p < n.start := by
        split_ifs with h
        · simp only [List.mem_singleton, exists_eq_left]
          grind
        · simp only [List.not_mem_nil, false_and, exists_false, false_iff]
          grind
      have hright : (∃ q ∈ if n.stop < r.stop then uncovered ⟨n.stop, r.stop⟩ ns else [],
          q.Covers p) ↔ r.Covers p ∧ n.stop ≤ p ∧ ¬ Layout.Covers ns p := by
        split_ifs with h
        · rw [ih htail]
          grind
        · simp only [List.not_mem_nil, false_and, exists_false, false_iff]
          grind
      rw [hleft, hright]
      grind

end ByteRange

end StorageUpgrade
