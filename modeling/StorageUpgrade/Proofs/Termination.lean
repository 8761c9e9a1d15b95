import StorageUpgrade.Proofs.Overlay
import StorageUpgrade.Proofs.Safety

/-!
# The end of the sweep

The sweep needs no order among the variables: as long as every new variable holds a byte it comes to
an end, it places the new variables as they are given, and what it leaves behind are parts of single
old variables. One pass may keep both lists as long as they are, but even then the rank of the state
sinks. A new variable without a byte takes this away: inside an old one it is never passed.
-/
namespace StorageUpgrade

open Overlay

namespace Overlay

/-- Some ranges are gone from the front, and the others may have lost bytes at their start. -/
def Trimmed (rs qs : List ByteRange) : Prop :=
  ∃ gone, rs.length = gone + qs.length ∧ ∀ i q, qs[i]? = some q →
    ∃ r, rs[gone + i]? = some r ∧ r.start ≤ q.start ∧ q.stop = r.stop

namespace Trimmed

variable {rs qs ts : List ByteRange} {r q : ByteRange}

theorem refl (rs : List ByteRange) : Trimmed rs rs :=
  ⟨0, (Nat.zero_add _).symm, fun i r hr => ⟨r, by rwa [Nat.zero_add], le_rfl, rfl⟩⟩

theorem trans (h : Trimmed rs qs) (k : Trimmed qs ts) : Trimmed rs ts := by
  obtain ⟨m, hlen, hm⟩ := h
  obtain ⟨n, hlen', hn⟩ := k
  refine ⟨m + n, by omega, fun i t ht => ?_⟩
  obtain ⟨q, hq, hstart, hstop⟩ := hn i t ht
  obtain ⟨r, hr, hstart', hstop'⟩ := hm (n + i) q hq
  exact ⟨r, by rwa [Nat.add_assoc], hstart'.trans hstart, hstop.trans hstop'⟩

theorem tail (r : ByteRange) (rs : List ByteRange) : Trimmed (r :: rs) rs := by
  refine ⟨1, Nat.add_comm _ _, fun i q hq => ⟨q, ?_, le_rfl, rfl⟩⟩
  rwa [Nat.add_comm, List.getElem?_cons_succ]

theorem head (hstart : r.start ≤ q.start) (hstop : q.stop = r.stop) (rs : List ByteRange) :
    Trimmed (r :: rs) (q :: rs) := by
  refine ⟨0, (Nat.zero_add _).symm, fun i t ht => ?_⟩
  rw [Nat.zero_add]
  cases i with
  | zero =>
    obtain rfl : q = t := by simpa using ht
    exact ⟨r, rfl, hstart, hstop⟩
  | succ i => exact ⟨t, ht, le_rfl, rfl⟩

/-- What is left lies within what there was. -/
theorem exists_within (h : Trimmed rs qs) (hq : q ∈ qs) : ∃ r ∈ rs, q.Within r := by
  obtain ⟨gone, _, h⟩ := h
  obtain ⟨i, hi⟩ := List.mem_iff_getElem?.1 hq
  obtain ⟨r, hr, hstart, hstop⟩ := h i q hi
  exact ⟨r, List.mem_iff_getElem?.2 ⟨_, hr⟩, hstart, hstop.le⟩

end Trimmed

theorem trimmed_supersede (stop : Position) (rs : List ByteRange) :
    Trimmed rs (supersede stop rs) := by
  induction rs with
  | nil => exact .refl []
  | cons r rs ih =>
    unfold supersede
    split_ifs with hgone hunder
    · exact (Trimmed.tail r rs).trans ih
    · exact Trimmed.head (q := ⟨stop, r.stop⟩) hunder.le rfl rs
    · exact .refl _

namespace Sweep

variable {s t u : Sweep} {ps : List Part} {r : ByteRange} {k m : Nat}

/-- The state after exactly this many passes, if the sweep does not end before. -/
def after : Nat → Sweep → Option Sweep
  | 0, s => some s
  | k + 1, s => s.pass.bind fun next => after k next.2

theorem after_succ (h : s.pass = some (ps, t)) (k : Nat) : s.after (k + 1) = t.after k := by
  rw [after, h]
  rfl

theorem exists_pass_of_after_succ (h : s.after (k + 1) = some u) :
    ∃ ps t, s.pass = some (ps, t) ∧ t.after k = some u := by
  obtain ⟨⟨ps, t⟩, hp, ht⟩ := Option.bind_eq_some_iff.1 h
  exact ⟨ps, t, hp, ht⟩

/-- No number of passes brings the sweep to its end. -/
def RunsForever (s : Sweep) : Prop := ∀ k, ∃ t, s.after k = some t

/-- The sweep has nothing left to do after this many passes or fewer. -/
def EndsWithin (s : Sweep) (bound : Nat) : Prop :=
  ∃ k ≤ bound, ∃ t, s.after k = some t ∧ t.pass = none

/-- A pass takes ranges from the front or bytes from their start, nothing else. -/
theorem Step.trimmed (h : Step s ps t) (hpos : ∀ n ∈ s.pending, n.start < n.stop) :
    Trimmed s.remaining t.remaining := by
  cases h with
  | append => exact .refl []
  | @abandon r rs => exact .tail r rs
  | @place r rs n ns first => exact trimmed_supersede n.stop (r :: rs)
  | @leave r rs n ns first below => exact .tail r rs
  | @cut r rs n ns first meet within =>
    have hn : n.start < n.stop := hpos n (.head _)
    exact Trimmed.head (q := ⟨n.stop, r.stop⟩) (first.trans hn.le) rfl rs
  | @bury r rs n ns first meet under => exact .tail r rs

theorem within_of_mem_lead {q : ByteRange} {n : Item} (hr : .dirty r ∈ lead q n)
    (meet : n.start < q.stop) : r.Within q := by
  rcases lead_eq_nil_or q n with hlead | ⟨_, hlead⟩
  · rw [hlead] at hr
    cases hr
  · rw [hlead, List.mem_singleton, Part.dirty.injEq] at hr
    subst hr
    exact ⟨le_rfl, meet.le⟩

/-- A dirty part lies within a range that remained. -/
theorem Step.exists_within (h : Step s ps t) (hr : .dirty r ∈ ps) :
    ∃ q ∈ s.remaining, r.Within q := by
  cases h with
  | append => simp at hr
  | @abandon q rs =>
    obtain rfl : r = q := by simpa using hr
    exact ⟨r, .head _, .refl r⟩
  | place first => simp at hr
  | @leave q rs n ns first below =>
    obtain rfl : r = q := by simpa using hr
    exact ⟨r, .head _, .refl r⟩
  | @cut q rs n ns first meet within => exact ⟨q, .head _, within_of_mem_lead hr meet⟩
  | @bury q rs n ns first meet under => exact ⟨q, .head _, within_of_mem_lead hr meet⟩

theorem pending_suffix_of_after (h : s.after k = some t) : t.pending <:+ s.pending := by
  induction k generalizing s with
  | zero =>
    obtain rfl : s = t := Option.some.inj h
    exact List.suffix_rfl
  | succ k ih =>
    obtain ⟨ps, u, hp, hu⟩ := exists_pass_of_after_succ h
    exact (ih hu).trans (step_of_pass hp).pending_suffix

/-- Along the passes no range that remains gets back a byte. -/
theorem trimmed_of_after (hpos : ∀ n ∈ s.pending, n.start < n.stop) (h : s.after k = some t) :
    Trimmed s.remaining t.remaining := by
  induction k generalizing s with
  | zero =>
    obtain rfl : s = t := Option.some.inj h
    exact .refl _
  | succ k ih =>
    obtain ⟨ps, u, hp, hu⟩ := exists_pass_of_after_succ h
    have hstep := step_of_pass hp
    exact (hstep.trimmed hpos).trans (ih (hstep.pos hpos) hu)

/-- A whole run leaves parts of the remaining ranges behind. -/
theorem Emits.exists_within (h : Emits s ps) (hpos : ∀ n ∈ s.pending, n.start < n.stop)
    (hr : .dirty r ∈ ps) : ∃ q ∈ s.remaining, r.Within q := by
  induction h with
  | done => cases hr
  | step hstep _ ih =>
    rcases List.mem_append.1 hr with hr | hr
    · exact hstep.exists_within hr
    · obtain ⟨q, hq, hrq⟩ := ih (hstep.pos hpos) hr
      obtain ⟨q', hq', hqq⟩ := (hstep.trimmed hpos).exists_within hq
      exact ⟨q', hq', hrq.trans hqq⟩

/-- The rank bounds the number of passes. -/
theorem endsWithin_of_rank_le (hpos : ∀ n ∈ s.pending, n.start < n.stop) (hrank : s.rank ≤ k) :
    s.EndsWithin k := by
  induction k generalizing s with
  | zero =>
    cases hp : s.pass with
    | none => exact ⟨0, le_rfl, s, rfl, hp⟩
    | some q =>
      have := (step_of_pass hp).rank_lt hpos
      omega
  | succ k ih =>
    cases hp : s.pass with
    | none => exact ⟨0, Nat.zero_le _, s, rfl, hp⟩
    | some q =>
      have hstep := step_of_pass hp
      have hlt := hstep.rank_lt hpos
      obtain ⟨m, hm, t, ht, hend⟩ := ih (hstep.pos hpos) (by omega)
      exact ⟨m + 1, Nat.succ_le_succ hm, t, by rwa [after_succ hp], hend⟩

theorem Emits.not_runsForever (h : Emits s ps) : ¬ s.RunsForever := by
  induction h with
  | done =>
    intro hforever
    obtain ⟨u, hu⟩ := hforever 1
    cases hu
  | step hstep _ ih =>
    refine fun hforever => ih fun k => ?_
    rw [← after_succ hstep.pass_eq]
    exact hforever (k + 1)

theorem exists_emits_of_after_eq_none (h : s.after k = none) : ∃ ps, Emits s ps := by
  induction k generalizing s with
  | zero => cases h
  | succ k ih =>
    cases hp : s.pass with
    | none =>
      rw [pass_eq_none hp]
      exact ⟨[], .done⟩
    | some q =>
      rw [after_succ hp] at h
      obtain ⟨ps, hps⟩ := ih h
      exact ⟨_, .step (step_of_pass hp) hps⟩

/-- A run without a result is one that goes on forever. -/
theorem run_eq_none_iff : s.run [] = none ↔ s.RunsForever := by
  rw [Option.eq_none_iff_forall_ne_some]
  simp only [ne_eq, run_eq_some_iff]
  constructor
  · intro hnone k
    cases h : s.after k with
    | some t => exact ⟨t, rfl⟩
    | none =>
      obtain ⟨ps, hps⟩ := exists_emits_of_after_eq_none h
      exact absurd hps (hnone ps)
  · exact fun hforever ps hps => hps.not_runsForever hforever

theorem after_add (j k : Nat) (s : Sweep) : s.after (j + k) = (s.after j).bind (after k) := by
  induction j generalizing s with
  | zero => rw [Nat.zero_add, after, Option.bind_some]
  | succ j ih =>
    rw [Nat.succ_add, after, after, Option.bind_assoc]
    exact Option.bind_congr fun next _ => ih next.2

/-- A state without an end is not left behind, and none comes before it. -/
theorem RunsForever.of_after (ht : t.RunsForever) (h : s.after k = some t) : s.RunsForever := by
  intro j
  obtain ⟨u, hu⟩ := ht j
  have hsum : s.after (j + k) = some u := by rw [Nat.add_comm, after_add, h, Option.bind_some, hu]
  rw [after_add] at hsum
  obtain ⟨v, hv, _⟩ := Option.bind_eq_some_iff.1 hsum
  exact ⟨v, hv⟩

section Sizeless

variable {rs : List ByteRange} {n : Item} {ns : List Item}

/-- A variable without a byte inside the first range is not placed. The range is cut at it, and what
is left of the range still begins with it. -/
theorem pass_of_sizeless (hsize : n.stop = n.start) (hin : r.Covers n.start) :
    (Sweep.mk (r :: rs) (n :: ns)).pass =
      some (lead r n, ⟨⟨n.start, r.stop⟩ :: rs, n :: ns⟩) := by
  rw [pass, if_neg (not_lt.2 hin.1), if_neg (not_le.2 hin.2), hsize, if_pos hin.2]
  rfl

theorem runsForever_of_sizeless (hsize : n.stop = n.start) (hin : r.Covers n.start) :
    (Sweep.mk (r :: rs) (n :: ns)).RunsForever := by
  intro k
  induction k generalizing r with
  | zero => exact ⟨_, rfl⟩
  | succ k ih =>
    rw [after_succ (pass_of_sizeless hsize hin)]
    exact ih ⟨le_rfl, hin.2⟩

end Sizeless

end Sweep

/-- What the sweep makes of two lists of variables in any order. -/
structure SweepsThrough (old new : List Item) (parts : List Part) : Prop where
  ends : (Sweep.ofLayouts old new).EndsWithin (old.length + 2 * new.length)
  /-- The parts are those of all passes. -/
  whole : ∃ ps, Sweep.Emits (.ofLayouts old new) ps ∧
    parts = ps.filter fun p => !p.range.isEmpty
  items : parts.filterMap Part.item? = new
  dirty : ∀ r, .dirty r ∈ parts → r.start < r.stop ∧ ∃ o ∈ old, r.Within o.range
  /-- What remains of the old variables between any two states on the way. -/
  trimmed : ∀ j k t u, (Sweep.ofLayouts old new).after j = some t → t.after k = some u →
    Trimmed t.remaining u.remaining

end Overlay

open Overlay

variable {old new : List Item} {parts : List Part}

theorem overlay_eq_none_iff : overlay old new = none ↔ (Sweep.ofLayouts old new).RunsForever := by
  rw [overlay, Option.map_eq_none_iff, Sweep.run_eq_none_iff]

theorem compareLayouts_eq_none_iff :
    compareLayouts old new = none ↔ old ≠ new ∧ (Sweep.ofLayouts old new).RunsForever := by
  unfold compareLayouts
  split_ifs with heq
  · exact iff_of_false nofun fun h => h.1 heq
  · rw [Option.map_eq_none_iff, overlay_eq_none_iff]
    exact (and_iff_right heq).symm

/-- The two documents have different layouts, and the sweep over these runs forever. -/
def Document.Endless (d e : Document) : Prop :=
  ∃ old new, d.layout = .ok old ∧ e.layout = .ok new ∧ old ≠ new ∧
    (Sweep.ofLayouts old new).RunsForever

/-- Documents without two layouts have an error for an answer. -/
theorem compareDocuments_ne_none {d e : Document}
    (h : ¬ ∃ old new, d.layout = .ok old ∧ e.layout = .ok new) : compareDocuments d e ≠ none := by
  unfold compareDocuments
  cases hd : d.layout with
  | error => simp
  | ok old =>
    cases he : e.layout with
    | error => simp
    | ok new => exact absurd ⟨old, new, hd, he⟩ h

theorem compareDocuments_eq_none_iff {d e : Document} :
    compareDocuments d e = none ↔ d.Endless e := by
  by_cases h : ∃ old new, d.layout = .ok old ∧ e.layout = .ok new
  · obtain ⟨old, new, hd, he⟩ := h
    rw [compareDocuments_of_layouts hd he, compareLayouts_eq_none_iff]
    constructor
    · exact fun h => ⟨old, new, hd, he, h⟩
    · rintro ⟨_, _, hold, hnew, h⟩
      cases hd.symm.trans hold
      cases he.symm.trans hnew
      exact h
  · refine iff_of_false (compareDocuments_ne_none h) ?_
    rintro ⟨old, new, hd, he, -⟩
    exact h ⟨old, new, hd, he⟩

/-- A comparison comes to an end if every new variable holds a byte. -/
theorem Document.not_endless {d e : Document}
    (hpos : ∀ new, e.layout = .ok new → ∀ n ∈ new, n.start < n.stop) : ¬ d.Endless e := by
  rintro ⟨old, new, _, hnew, _, hforever⟩
  obtain ⟨parts, hparts⟩ := exists_overlay old (hpos new hnew)
  rw [overlay_eq_none_iff.2 hforever] at hparts
  cases hparts

section Pos

variable (hpos : ∀ n ∈ new, n.start < n.stop) (hparts : overlay old new = some parts)

include hpos hparts

theorem filterMap_item?_overlay : parts.filterMap Part.item? = new := by
  obtain ⟨ps, hps, rfl⟩ := overlay_eq_some_iff.1 hparts
  have hitems : ps.filterMap Part.item? = new := hps.items
  conv => rhs; rw [← hitems]
  rw [List.filterMap_filter]
  refine List.filterMap_congr fun p hp => ?_
  cases p with
  | item n =>
    have hn := hpos n (hitems ▸ Part.mem_filterMap_item?.2 hp)
    simp [Part.range, hn]
  | dirty r => simp [Part.item?]

theorem within_of_dirty_mem_overlay {r : ByteRange} (hr : .dirty r ∈ parts) :
    r.start < r.stop ∧ ∃ o ∈ old, r.Within o.range := by
  obtain ⟨ps, hps, rfl⟩ := overlay_eq_some_iff.1 hparts
  obtain ⟨hmem, hkeep⟩ := List.mem_filter.1 hr
  obtain ⟨q, hq, hrq⟩ := hps.exists_within hpos hmem
  obtain ⟨o, ho, rfl⟩ := List.mem_map.1 hq
  exact ⟨by simpa [Part.range] using hkeep, o, ho, hrq⟩

theorem sweepsThrough : SweepsThrough old new parts := by
  have hbound : (Sweep.ofLayouts old new).rank ≤ old.length + 2 * new.length := by
    simpa [Sweep.ofLayouts] using (Sweep.ofLayouts old new).rank_le
  refine ⟨Sweep.endsWithin_of_rank_le hpos hbound, overlay_eq_some_iff.1 hparts,
    filterMap_item?_overlay hpos hparts, fun r => within_of_dirty_mem_overlay hpos hparts,
    fun j k t u ht hu => ?_⟩
  have hsuffix : t.pending <:+ new := Sweep.pending_suffix_of_after ht
  exact Sweep.trimmed_of_after (fun n hn => hpos n (hsuffix.mem hn)) hu

end Pos

/-- A type may have no size, and then its variables hold no byte. -/
theorem Document.exists_item_of_sizeless {d : Document} {r : Record} {t : TypeDef}
    {slot offset : Position} (h : d.Resolves r t slot offset 0) :
    ∃ i, d.item r = .ok i ∧ i.stop = i.start :=
  ⟨_, item_eq_ok_iff.2 ⟨t, slot, offset, 0, h, rfl⟩, rfl⟩

/-- A record in the first byte of storage. -/
def Document.Record.marker : Record := ⟨none, none, "marker", .word 0, .word 0, "t_marker"⟩

/-- A document with a single record, whose type has no size. -/
def Document.ofMarker : Document :=
  ⟨[.marker], some ⟨[("t_marker", ⟨"inplace", "Marker", .word 0, none⟩)], by simp⟩⟩

theorem Document.layout_ofMarker :
    Document.ofMarker.layout = .ok [.inplace "marker" "Marker" 0 0] := by
  have hitems : Document.ofMarker.items = .ok [.inplace "marker" "Marker" 0 0] := by
    decide +kernel
  exact layout_eq_ok_iff.2 ⟨_, hitems, List.mergeSort_singleton _⟩

theorem Document.layout_ofTotal :
    (Document.ofWords ["total"]).layout = .ok [.inplace "total" "uint256" 0 32] :=
  layout_of_items (by decide +kernel) (by decide)

theorem Document.runsForever_ofMarker :
    (Sweep.ofLayouts [.inplace "total" "uint256" 0 32]
      [.inplace "marker" "Marker" 0 0]).RunsForever :=
  Sweep.runsForever_of_sizeless rfl (by decide)

/-- The record is of no size, so it is never passed in the comparison. -/
theorem Document.compareDocuments_ofMarker :
    compareDocuments (.ofWords ["total"]) .ofMarker = none := by
  rw [compareDocuments_of_layouts layout_ofTotal layout_ofMarker]
  exact compareLayouts_eq_none_iff.2 ⟨by decide, runsForever_ofMarker⟩

/-- The sweep ends for all lists of variables as long as the new ones hold a byte, and it places
each of these. A new variable without a byte inside the first range that remains keeps it from ever
ending, and there are documents with such variables, which cannot be compared. -/
theorem sweep_ends_sharp :
    (∀ old new : List Item, (∀ n ∈ new, n.start < n.stop) →
        ∃ parts, overlay old new = some parts ∧ SweepsThrough old new parts) ∧
      (∀ (r : ByteRange) (rs : List ByteRange) (n : Item) (ns : List Item),
        n.stop = n.start → r.Covers n.start →
          (∃ parts, (Sweep.mk (r :: rs) (n :: ns)).pass =
            some (parts, ⟨⟨n.start, r.stop⟩ :: rs, n :: ns⟩)) ∧
          ByteRange.Covers ⟨n.start, r.stop⟩ n.start ∧
          ∀ s k, Sweep.after k s = some ⟨r :: rs, n :: ns⟩ →
            s.RunsForever ∧ s.run [] = none) ∧
      (∀ (d : Document) r t slot offset, d.Resolves r t slot offset 0 →
        ∃ i, d.item r = .ok i ∧ i.stop = i.start) ∧
      ∃ (d e : Document) (old new : Layout), d.layout = .ok old ∧ e.layout = .ok new ∧
        old ≠ new ∧ (Sweep.ofLayouts old new).RunsForever ∧ compareDocuments d e = none := by
  refine ⟨fun old new hpos => ?_, fun r rs n ns hsize hin => ?_,
    fun d r t slot offset h => Document.exists_item_of_sizeless h, ?_⟩
  · obtain ⟨parts, hparts⟩ := exists_overlay old hpos
    exact ⟨parts, hparts, sweepsThrough hpos hparts⟩
  · refine ⟨⟨_, Sweep.pass_of_sizeless hsize hin⟩, ⟨le_rfl, hin.2⟩, fun s k h => ?_⟩
    have hforever := (Sweep.runsForever_of_sizeless hsize hin).of_after h
    exact ⟨hforever, Sweep.run_eq_none_iff.2 hforever⟩
  · exact ⟨_, _, _, _, Document.layout_ofTotal, Document.layout_ofMarker, by decide,
      Document.runsForever_ofMarker, Document.compareDocuments_ofMarker⟩

/-- Old variables out of order. One ends before it starts, one holds no byte, and the last one
overlaps all others. -/
def Layout.tangledBefore : Layout :=
  [.inplace "cap" "uint128" 32 16, { Item.inplace "debt" "uint64" 48 8 with stop := 40 },
    .inplace "marker" "Marker" 8 0, .inplace "pool" "Pool" 0 64]

def Layout.tangledAfter : Layout :=
  [.inplace "cap" "uint128" 40 16, .inplace "total" "uint128" 0 16, .inplace "debt" "uint64" 8 24]

theorem sweep_ends_sharp_tangled :
    (∃ parts, overlay Layout.tangledBefore Layout.tangledAfter = some parts ∧
      SweepsThrough Layout.tangledBefore Layout.tangledAfter parts ∧
      parts.filterMap Part.dirty? = [⟨32, 40⟩, ⟨56, 64⟩]) ∧
      Sweep.RunsForever ⟨[⟨0, 32⟩], [.inplace "marker" "Marker" 8 0]⟩ ∧
      ∃ i, Document.ofMarker.item .marker = .ok i ∧ i.stop = i.start := by
  obtain ⟨hends, hstalls, hsizeless, _⟩ := sweep_ends_sharp
  obtain ⟨parts, hparts, hsweeps⟩ := hends Layout.tangledBefore Layout.tangledAfter (by decide)
  obtain ⟨_, _, hforever⟩ :=
    hstalls ⟨0, 32⟩ [] (.inplace "marker" "Marker" 8 0) [] rfl (by decide)
  refine ⟨⟨parts, hparts, hsweeps, ?_⟩, (hforever _ 0 rfl).1, ?_⟩
  · rw [overlay_eq_of_emittedWithin 11 rfl] at hparts
    obtain rfl := Option.some.inj hparts
    decide +kernel
  · refine hsizeless .ofMarker .marker ⟨"inplace", "Marker", .word 0, none⟩ 0 0 ?_
    exact ⟨rfl, rfl, rfl, rfl, by decide +kernel, by decide, by decide +kernel⟩

end StorageUpgrade
