import StorageUpgrade.Proofs.Shift
import StorageUpgrade.Proofs.Sweep

/-!
# Moving both layouts

Only the places of variables relative to one another matter. When both layouts move up by the same
number of slots, each pass of the sweep, each placeholder and each finding moves along, and nothing
else about the comparison changes. This holds of all layouts, in order or not.
-/
namespace StorageUpgrade

open Overlay

variable {α : Type} {k : Nat}

namespace Overlay

theorem supersede_shift (k : Nat) (stop : Position) (rs : List ByteRange) :
    supersede (Position.shift k stop) (rs.map (ByteRange.shift k)) =
      (supersede stop rs).map (ByteRange.shift k) := by
  induction rs with
  | nil => rfl
  | cons r rs ih =>
    simp only [List.map_cons, supersede, ByteRange.shift_start, ByteRange.shift_stop,
      Position.shift_le_shift, Position.shift_lt_shift]
    split_ifs
    · exact ih
    · rfl
    · rfl

namespace Sweep

/-- A pass on the moved state emits the moved parts and leaves the moved rest. -/
theorem pass_shift (k : Nat) (s : Sweep) :
    (s.shift k).pass =
      s.pass.map fun (parts, next) => (parts.map (Part.shift k), next.shift k) := by
  obtain ⟨_ | ⟨r, rs⟩, _ | ⟨n, ns⟩⟩ := s
  · rfl
  · rfl
  · rfl
  · simp only [shift, List.map_cons, pass, ByteRange.shift_start, ByteRange.shift_stop,
      Item.shift_start, Item.shift_stop, Position.shift_le_shift, Position.shift_lt_shift]
    split_ifs
    · rw [← List.map_cons, supersede_shift]
      rfl
    all_goals rfl

theorem Emits.shift {s : Sweep} {ps : List Part} (h : Emits s ps) (k : Nat) :
    Emits (s.shift k) (ps.map (Part.shift k)) := by
  induction h with
  | done => exact .done
  | step hstep _ ih =>
    rw [List.map_append]
    refine .step (step_of_pass ?_) ih
    rw [pass_shift, hstep.pass_eq]
    rfl

/-- The moved state emits nothing but moved parts. -/
theorem exists_emits_of_shift {s : Sweep} {qs : List Part} (h : Emits (s.shift k) qs) :
    ∃ ps, Emits s ps ∧ qs = ps.map (Part.shift k) := by
  generalize hmoved : s.shift k = moved at h
  induction h generalizing s with
  | done =>
    have hnone : s.pass = none := by
      rw [← Option.map_eq_none_iff, ← pass_shift k, hmoved]
      rfl
    rw [pass_eq_none hnone]
    exact ⟨[], .done, rfl⟩
  | step hstep _ ih =>
    have hpass := hstep.pass_eq
    rw [← hmoved, pass_shift] at hpass
    obtain ⟨⟨parts, next⟩, hbefore, hmove⟩ := Option.map_eq_some_iff.1 hpass
    obtain ⟨rfl, hnext⟩ := Prod.mk.inj hmove
    obtain ⟨ps, hps, rfl⟩ := ih hnext
    exact ⟨parts ++ ps, .step (step_of_pass hbefore) hps, (List.map_append ..).symm⟩

/-- A whole run moves with its first state, if it has an end, and has none otherwise. -/
theorem run_shift (k : Nat) (s : Sweep) :
    (s.shift k).run [] = (s.run []).map (List.map (Part.shift k)) := by
  ext qs
  rw [run_eq_some_iff, Option.map_eq_some_iff]
  constructor
  · intro h
    obtain ⟨ps, hps, rfl⟩ := exists_emits_of_shift h
    exact ⟨ps, run_eq_some_iff.2 hps, rfl⟩
  · rintro ⟨ps, hps, rfl⟩
    exact (run_eq_some_iff.1 hps).shift k

end Sweep

end Overlay

theorem overlay_shift (k : Nat) (old new : Layout) :
    overlay (old.shift k) (new.shift k) = (overlay old new).map (List.map (Part.shift k)) := by
  have hstart : Sweep.ofLayouts (old.shift k) (new.shift k) =
      (Sweep.ofLayouts old new).shift k := by
    simp [Sweep.ofLayouts, Sweep.shift, Layout.shift, Function.comp_def]
  have hkeep : (fun p : Part => !p.range.isEmpty) ∘ Part.shift k =
      fun p : Part => !p.range.isEmpty := by
    funext p
    simp
  rw [overlay, overlay, hstart, Sweep.run_shift, Option.map_map, Option.map_map]
  refine Option.map_congr fun ps _ => ?_
  rw [Function.comp_apply, Function.comp_apply, List.filter_map, hkeep]

theorem dirtyByteCount_shift (k : Nat) (parts : List Part) :
    dirtyByteCount (parts.map (Part.shift k)) = dirtyByteCount parts := by
  have hdirty : Part.isDirty ∘ Part.shift k = Part.isDirty := funext (Part.isDirty_shift k)
  simp only [dirtyByteCount, List.filter_map, hdirty, List.foldl_map, Part.range_shift,
    ByteRange.width_shift]

theorem missingStarts_shift (k : Nat) (present reference : List Position) :
    missingStarts (present.map (Position.shift k)) (reference.map (Position.shift k)) =
      (missingStarts present reference).map (Position.shift k) := by
  have hinj : Function.Injective (Position.shift k) := fun _ _ => Position.shift_inj.1
  induction reference generalizing present with
  | nil => rfl
  | cons p ps ih =>
    simp only [List.map_cons, missingStarts, List.mem_map_of_injective hinj]
    split_ifs
    · exact ih present
    · rw [← List.map_cons, ih, List.map_cons]

section Padding

variable {key : α → Position} {move : α → α}

theorem sortByPosition_shift (hkey : ∀ a, key (move a) = Position.shift k (key a)) (xs : List α) :
    sortByPosition key (xs.map move) = (sortByPosition key xs).map move := by
  refine (List.map_mergeSort fun a _ b _ => ?_).symm
  simp [hkey]

theorem Aligned.map_entry_shift (k : Nat) (move : α → α) (xs : List α) :
    (xs.map move).map entry = (xs.map entry).map (Aligned.shift k move) := by
  rw [List.map_map, List.map_map]
  rfl

theorem Aligned.start_shift (hkey : ∀ a, key (move a) = Position.shift k (key a)) (x : Aligned α) :
    (x.shift k move).start key = Position.shift k (x.start key) := by
  cases x with
  | entry a => exact hkey a
  | absent p => rfl

theorem Aligned.map_start_shift (hkey : ∀ a, key (move a) = Position.shift k (key a))
    (xs : List (Aligned α)) :
    (xs.map (Aligned.shift k move)).map (Aligned.start key) =
      (xs.map (Aligned.start key)).map (Position.shift k) := by
  rw [List.map_map, List.map_map]
  exact List.map_congr_left fun x _ => Aligned.start_shift hkey x

theorem padStarts_shift (hkey : ∀ a, key (move a) = Position.shift k (key a))
    (base : List (Aligned α)) (reference : List Position) :
    padStarts key (base.map (Aligned.shift k move)) (reference.map (Position.shift k)) =
      (padStarts key base reference).map (Aligned.shift k move) := by
  have habsent : Aligned.absent ∘ Position.shift k =
      Aligned.shift k move ∘ (Aligned.absent : Position → Aligned α) := rfl
  simp only [padStarts]
  rw [Aligned.map_start_shift hkey, missingStarts_shift, List.map_map, habsent, ← List.map_map,
    ← List.map_append, sortByPosition_shift (Aligned.start_shift hkey)]

end Padding

theorem align_shift (k : Nat) (parts : List Part) (old : Layout) :
    align (parts.map (Part.shift k)) (old.shift k) =
      shiftResult k (Alignment.shift k) (align parts old) := by
  have hstarts : (old.shift k).map Item.start = (old.map Item.start).map (Position.shift k) := by
    rw [Layout.shift, List.map_map, List.map_map]
    rfl
  simp only [align]
  rw [Aligned.map_entry_shift, hstarts, padStarts_shift (Part.start_shift k),
    Aligned.map_start_shift (Part.start_shift k), Layout.shift, Aligned.map_entry_shift,
    padStarts_shift (Item.shift_start k), List.length_map, List.length_map]
  split_ifs
  · rfl
  · rfl

theorem ofReplacement_shift (k : Nat) (n o : Item) (l : Layout) :
    Classification.ofReplacement (n.shift k) (o.shift k) (l.shift k) =
      Classification.ofReplacement n o l := by
  simp [Classification.ofReplacement]

theorem ofFresh_shift (k : Nat) (n : Item) (l : Layout) :
    Classification.ofFresh (n.shift k) (l.shift k) = Classification.ofFresh n l := by
  simp [Classification.ofFresh]

theorem findingOfRow_shift (k : Nat) (l : Layout) (row : Aligned Part × Aligned Item) :
    findingOfRow (l.shift k) (row.1.shift k (Part.shift k), row.2.shift k (Item.shift k)) =
      shiftResult k (Finding.shift k) (findingOfRow l row) := by
  obtain ⟨(n | r) | s, o | t⟩ := row
  · simp only [Aligned.shift, Part.shift, findingOfRow, ofReplacement_shift]
    rfl
  · simp only [Aligned.shift, Part.shift, findingOfRow, ofFresh_shift]
    rfl
  · rfl
  · simp only [Aligned.shift, Part.shift, findingOfRow, View.ofDirty_shift]
    rfl
  · rfl
  · rfl

theorem classify_shift (k : Nat) (a : Alignment) (l : Layout) :
    classify (a.shift k) (l.shift k) =
      shiftResult k (List.map (Finding.shift k)) (classify a l) := by
  have hrows : (a.shift k).rows = a.rows.map fun row =>
      (row.1.shift k (Part.shift k), row.2.shift k (Item.shift k)) :=
    List.zip_map ..
  simp only [classify, hrows, mapM_shiftResult (findingOfRow_shift k l)]
  simp only [Alignment.shift, List.length_map]
  split_ifs
  · rfl
  · rfl

/-- Findings are counted by their outcomes, which do not move. -/
theorem ofFindings_shift (k : Nat) (fs : List Finding) (dirtyBytes : Position) :
    Comparison.ofFindings (fs.map (Finding.shift k)) dirtyBytes =
      (Comparison.ofFindings fs dirtyBytes).shift k := by
  have hfold : ∀ c : Comparison,
      (fs.map (Finding.shift k)).foldl Comparison.add (c.shift k) =
        (fs.foldl Comparison.add c).shift k := by
    induction fs with
    | nil => exact fun c => rfl
    | cons f fs ih =>
      intro c
      have hadd : (c.shift k).add (f.shift k) = (c.add f).shift k := by
        simp [Comparison.add, Comparison.shift, Finding.shift]
      rw [List.map_cons, List.foldl_cons, List.foldl_cons, hadd, ih]
  have hempty : Comparison.shift k {} = {} := rfl
  simp only [Comparison.ofFindings]
  rw [← hempty, hfold, hempty]
  rfl

end StorageUpgrade
