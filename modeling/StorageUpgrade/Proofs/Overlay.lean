import StorageUpgrade.Proofs.Sweep

/-!
# The overlay of well-formed layouts

The overlay ascends, its variables are those of the new layout in their order, and its dirty parts
are the pieces of the old variables that the new layout does not cover. The order, the variables and
the pieces are each kept by one pass and then by the whole run.
-/
namespace StorageUpgrade

namespace Overlay

open ByteRange

/-- Both sides of the sweep ascend. -/
structure Sweep.Ordered (s : Sweep) : Prop where
  remaining : Ascending s.remaining
  pending : Layout.WellFormed s.pending

variable {s t : Sweep} {ps : List Part} {r : ByteRange} {rs : List ByteRange}
variable {n : Item} {ns : Layout} {stop : Position}

theorem ascending_supersede (hrs : Ascending rs) :
    Ascending (supersede stop rs) ∧ ∀ r ∈ supersede stop rs, stop ≤ r.start := by
  induction rs with
  | nil => exact ⟨hrs, by simp [supersede]⟩
  | cons r rs ih =>
    obtain ⟨hr, hlater, htail⟩ := ascending_cons.1 hrs
    unfold supersede
    split_ifs with hgone hunder
    · exact ih htail
    · refine ⟨ascending_cons.2 ⟨not_le.1 hgone, hlater, htail⟩, ?_⟩
      simp only [List.forall_mem_cons, le_refl, true_and]
      intro q hq
      have := hlater q hq
      lia
    · refine ⟨hrs, ?_⟩
      simp only [List.forall_mem_cons]
      refine ⟨not_lt.1 hunder, fun q hq => ?_⟩
      have := hlater q hq
      lia

theorem uncovered_eq_nil (hr : r.start < r.stop) (hlo : n.start ≤ r.start) (hhi : r.stop ≤ n.stop) :
    r.uncovered (n :: ns) = [] := by
  rw [uncovered_of_meets (by lia) (by lia), if_neg (by lia), if_neg (by lia), List.append_nil]

theorem uncovered_eq_rest (hlo : n.start ≤ r.start) (hin : r.start < n.stop)
    (hhi : n.stop < r.stop) : r.uncovered (n :: ns) = uncovered ⟨n.stop, r.stop⟩ ns := by
  rw [uncovered_of_meets hin (by lia), if_neg (by lia), if_pos hhi, List.nil_append]

theorem flatMap_uncovered_of_stop_le (h : ∀ r ∈ rs, n.stop ≤ r.start) :
    rs.flatMap (uncovered · (n :: ns)) = rs.flatMap (uncovered · ns) :=
  List.flatMap_congr fun r hr => uncovered_of_stop_le (h r hr)

/-- Placing a variable that starts below the ranges leaves the pieces as they are. -/
theorem flatMap_uncovered_supersede (hrs : Ascending rs) (hfirst : ∀ r ∈ rs, n.start ≤ r.start) :
    rs.flatMap (uncovered · (n :: ns)) = (supersede n.stop rs).flatMap (uncovered · ns) := by
  induction rs with
  | nil => rfl
  | cons r rs ih =>
    obtain ⟨hr, hlater, htail⟩ := ascending_cons.1 hrs
    obtain ⟨hrfirst, hfirst⟩ := List.forall_mem_cons.1 hfirst
    unfold supersede
    split_ifs with hgone hunder
    · rw [List.flatMap_cons, uncovered_eq_nil hr hrfirst hgone, ih htail hfirst, List.nil_append]
    · have hrest : ∀ q ∈ rs, n.stop ≤ q.start := by
        intro q hq
        have := hlater q hq
        lia
      rw [List.flatMap_cons, List.flatMap_cons, flatMap_uncovered_of_stop_le hrest,
        uncovered_eq_rest hrfirst hunder (not_le.1 hgone)]
    · refine flatMap_uncovered_of_stop_le fun q hq => ?_
      rcases List.mem_cons.1 hq with rfl | hq
      · exact not_lt.1 hunder
      · have := hlater q hq
        lia

theorem start_le_of_mem {m : Item} (hns : Layout.WellFormed (n :: ns)) (hm : m ∈ n :: ns) :
    n.start ≤ m.start := by
  obtain ⟨hn, hlater, _⟩ := Layout.wellFormed_cons.1 hns
  rcases List.mem_cons.1 hm with rfl | hm
  · exact le_rfl
  · exact hn.le.trans (hlater m hm)

namespace Sweep

/-- What one pass keeps: a variable is emitted when it stops to be pending. -/
theorem Step.items (h : Step s ps t) : ps.filterMap Part.item? ++ t.pending = s.pending := by
  cases h
  case cut | bury => rw [filterMap_item?_lead, List.nil_append]
  all_goals rfl

theorem Step.ordered (h : Step s ps t) (hs : s.Ordered) : t.Ordered := by
  obtain ⟨hrs, hns⟩ := hs
  cases h with
  | append => exact ⟨hrs, (Layout.wellFormed_cons.1 hns).2.2⟩
  | abandon => exact ⟨(ascending_cons.1 hrs).2.2, hns⟩
  | place first => exact ⟨(ascending_supersede hrs).1, (Layout.wellFormed_cons.1 hns).2.2⟩
  | leave first below => exact ⟨(ascending_cons.1 hrs).2.2, hns⟩
  | cut first meet within =>
    obtain ⟨hr, hlater, htail⟩ := ascending_cons.1 hrs
    exact ⟨ascending_cons.2 ⟨within, hlater, htail⟩, hns⟩
  | bury first meet under => exact ⟨(ascending_cons.1 hrs).2.2, hns⟩

/-- What one pass keeps: a piece is emitted when its range stops to remain. -/
theorem Step.dirty (h : Step s ps t) (hs : s.Ordered) :
    ps.filterMap Part.dirty? ++ t.remaining.flatMap (uncovered · t.pending) =
      s.remaining.flatMap (uncovered · s.pending) := by
  obtain ⟨hrs, hns⟩ := hs
  cases h with
  | append => rfl
  | abandon => simp [Part.dirty?, uncovered]
  | @place r rs n ns first =>
    have hfirst : ∀ q ∈ r :: rs, n.start ≤ q.start := by
      intro q hq
      obtain ⟨hr, hlater, _⟩ := ascending_cons.1 hrs
      rcases List.mem_cons.1 hq with rfl | hq
      · exact first.le
      · have := hlater q hq
        lia
    exact (flatMap_uncovered_supersede hrs hfirst).symm
  | @leave r rs n ns first below =>
    have hr := (ascending_cons.1 hrs).1
    have hn := (Layout.wellFormed_cons.1 hns).1
    rw [List.flatMap_cons, uncovered_of_le_start hr hn below]
    rfl
  | @cut r rs n ns first meet within =>
    have hn := (Layout.wellFormed_cons.1 hns).1
    rw [List.flatMap_cons, List.flatMap_cons, uncovered_of_meets (by lia) meet, if_pos within,
      uncovered_of_stop_le (r := ⟨n.stop, r.stop⟩) le_rfl, filterMap_dirty?_lead, List.append_assoc]
  | @bury r rs n ns first meet under =>
    have hn := (Layout.wellFormed_cons.1 hns).1
    rw [List.flatMap_cons, uncovered_of_meets (by lia) meet, if_neg (not_lt.2 under),
      filterMap_dirty?_lead, List.append_nil]

/-- A pass emits one part at most, which ends before all that is left starts. -/
theorem Step.emitted (h : Step s ps t) (hs : s.Ordered) :
    ps = [] ∨ ∃ p, ps = [p] ∧ p.range.start < p.range.stop ∧
      (∀ r ∈ t.remaining, p.range.stop ≤ r.start) ∧ ∀ n ∈ t.pending, p.range.stop ≤ n.start := by
  obtain ⟨hrs, hns⟩ := hs
  cases h with
  | @append n ns =>
    obtain ⟨hn, hlater, _⟩ := Layout.wellFormed_cons.1 hns
    exact .inr ⟨.item n, rfl, hn, by simp, hlater⟩
  | @abandon r rs =>
    obtain ⟨hr, hlater, _⟩ := ascending_cons.1 hrs
    exact .inr ⟨.dirty r, rfl, hr, hlater, by simp⟩
  | @place r rs n ns first =>
    obtain ⟨hn, hlater, _⟩ := Layout.wellFormed_cons.1 hns
    exact .inr ⟨.item n, rfl, hn, (ascending_supersede hrs).2, hlater⟩
  | @leave r rs n ns first below =>
    obtain ⟨hr, hlater, _⟩ := ascending_cons.1 hrs
    refine .inr ⟨.dirty r, rfl, hr, hlater, fun m hm => ?_⟩
    exact below.trans (start_le_of_mem hns hm)
  | @cut r rs n ns first meet within =>
    obtain ⟨_, hlater, _⟩ := ascending_cons.1 hrs
    have hn := (Layout.wellFormed_cons.1 hns).1
    refine (lead_eq_nil_or r n).imp_right fun ⟨hlt, hlead⟩ => ⟨_, hlead, hlt, ?_, ?_⟩
    · intro q hq
      rcases List.mem_cons.1 hq with rfl | hq
      · exact hn.le
      · exact meet.le.trans (hlater q hq)
    · exact fun m hm => start_le_of_mem hns hm
  | @bury r rs n ns first meet under =>
    obtain ⟨_, hlater, _⟩ := ascending_cons.1 hrs
    refine (lead_eq_nil_or r n).imp_right fun ⟨hlt, hlead⟩ => ⟨_, hlead, hlt, ?_, ?_⟩
    · exact fun q hq => meet.le.trans (hlater q hq)
    · exact fun m hm => start_le_of_mem hns hm

/-- A whole run emits the pending variables, whatever the ranges are. -/
theorem Emits.items (h : Emits s ps) : ps.filterMap Part.item? = s.pending := by
  induction h with
  | done => rfl
  | step hstep _ ih => rw [List.filterMap_append, ih, hstep.items]

/-- A whole run emits the uncovered pieces of the ranges. -/
theorem Emits.dirty (h : Emits s ps) (hs : s.Ordered) :
    ps.filterMap Part.dirty? = s.remaining.flatMap (uncovered · s.pending) := by
  induction h with
  | done => rfl
  | step hstep _ ih =>
    rw [List.filterMap_append, ih (hstep.ordered hs), hstep.dirty hs]

theorem Emits.le_start (h : Emits s ps) (hs : s.Ordered) {p : Position}
    (hrs : ∀ r ∈ s.remaining, p ≤ r.start) (hns : ∀ n ∈ s.pending, p ≤ n.start) :
    ∀ q ∈ ps, p ≤ q.range.start := by
  rintro (n | q) hq
  · exact hns n (h.items ▸ Part.mem_filterMap_item?.2 hq)
  · have hmem := Part.mem_filterMap_dirty?.2 hq
    rw [h.dirty hs, List.mem_flatMap] at hmem
    obtain ⟨r, hr, hq⟩ := hmem
    have hin := ((mem_uncovered (hs.remaining.1 r hr) hs.pending).1 hq).inside
    exact (hrs r hr).trans hin.1

theorem Emits.ascending (h : Emits s ps) (hs : s.Ordered) : Ascending (ps.map Part.range) := by
  induction h with
  | done => exact .nil
  | step hstep hrest ih =>
    have ht := hstep.ordered hs
    rcases hstep.emitted hs with rfl | ⟨p, rfl, hp, hrs, hns⟩
    · exact ih ht
    · refine ascending_cons.2 ⟨hp, ?_, ih ht⟩
      exact List.forall_mem_map.2 (hrest.le_start ht hrs hns)

end Sweep

end Overlay

open Overlay

variable {old new : Layout} {r : ByteRange} {n : Item}

theorem Overlay.Sweep.ordered_ofLayouts (ho : old.WellFormed) (hn : new.WellFormed) :
    (Sweep.ofLayouts old new).Ordered :=
  ⟨Layout.wellFormed_iff_ascending.1 ho, hn⟩

/-- An overlay holds what the sweep emits, empty parts apart. -/
theorem overlay_eq_some_iff {old new : List Item} {parts : List Part} :
    overlay old new = some parts ↔
      ∃ ps, Sweep.Emits (.ofLayouts old new) ps ∧ parts = ps.filter fun p => !p.range.isEmpty := by
  simp only [overlay, Option.map_eq_some_iff, Sweep.run_eq_some_iff, eq_comm (a := parts)]

/-- An overlay may be computed when it takes few passes. -/
theorem overlay_eq_of_emittedWithin {old new : List Item} {ps : List Part} (bound : Nat)
    (h : (Sweep.ofLayouts old new).emittedWithin bound = some ps) :
    overlay old new = some (ps.filter fun p => !p.range.isEmpty) :=
  overlay_eq_some_iff.2 ⟨ps, Sweep.emits_of_emittedWithin h, rfl⟩

/-- There is an overlay as long as every new variable holds a byte. -/
theorem exists_overlay (old : List Item) {new : List Item} (hpos : ∀ n ∈ new, n.start < n.stop) :
    ∃ parts, overlay old new = some parts := by
  obtain ⟨ps, hps⟩ := Sweep.exists_emits (s := .ofLayouts old new) hpos
  exact ⟨_, overlay_eq_some_iff.2 ⟨ps, hps, rfl⟩⟩

section WellFormed

variable {parts : List Part} (ho : old.WellFormed) (hn : new.WellFormed)
  (hparts : overlay old new = some parts)

include ho hn hparts

/-- Nothing is dropped from the run of the sweep, since every part holds a byte. -/
theorem emits_overlay : Sweep.Emits (.ofLayouts old new) parts := by
  obtain ⟨ps, hrun, rfl⟩ := overlay_eq_some_iff.1 hparts
  have hpos := (hrun.ascending (Sweep.ordered_ofLayouts ho hn)).1
  have hall : ps.filter (fun p => !p.range.isEmpty) = ps := List.filter_eq_self.2 fun p hp => by
    simpa using hpos p.range (List.mem_map_of_mem hp)
  rwa [hall]

theorem overlay_ascending : ByteRange.Ascending (parts.map Part.range) :=
  (emits_overlay ho hn hparts).ascending (Sweep.ordered_ofLayouts ho hn)

/-- The variables of the overlay are the new ones. -/
theorem item_mem_overlay : .item n ∈ parts ↔ n ∈ new := by
  rw [← Part.mem_filterMap_item?, (emits_overlay ho hn hparts).items]
  rfl

theorem overlay_dirty : parts.filterMap Part.dirty? = old.flatMap fun o => o.range.uncovered new := by
  rw [(emits_overlay ho hn hparts).dirty (Sweep.ordered_ofLayouts ho hn), Sweep.ofLayouts,
    List.flatMap_map]

/-- The dirty parts of the overlay are the pieces of the old variables. -/
theorem dirty_mem_overlay : .dirty r ∈ parts ↔ ∃ o ∈ old, o.range.IsPiece new r := by
  rw [← Part.mem_filterMap_dirty?, overlay_dirty ho hn hparts, List.mem_flatMap]
  exact exists_congr fun o => and_congr_right fun ho' =>
    ByteRange.mem_uncovered (ho.pos ho') hn

end WellFormed

end StorageUpgrade
