import Mathlib.Data.Finset.Sort
import StorageUpgrade.Proofs.Listing

/-!
# Padded sequences

Padding keeps every entry of a sequence, adds each missing start once and sorts stably. So a padded
sequence is as long as the sequence and its missing starts together, and two sequences can be
aligned exactly when they have the same surplus of repeated starts. Without a repeated start there
is one row for each start of the two sequences.
-/
namespace StorageUpgrade

open Overlay

variable {α β : Type} {key : α → Position} {xs : List α} {missing : Finset Position}
variable {ys : List (Aligned α)} {p : Position}

/-- The set of the starts of a sequence. -/
def startSet (key : α → Position) (xs : List α) : Finset Position := (xs.map key).toFinset

@[simp] theorem mem_startSet : p ∈ startSet key xs ↔ ∃ x ∈ xs, key x = p := by
  simp [startSet]

theorem card_startSet_le (key : α → Position) (xs : List α) :
    (startSet key xs).card ≤ xs.length := by
  simpa [startSet] using (xs.map key).toFinset_card_le

/-- The entries of a padded sequence. -/
def Aligned.entries (ys : List (Aligned α)) : List α := ys.filterMap Aligned.entry?

/-- An entry starts where its place in the padded sequence does. -/
theorem filter_entries (ys : List (Aligned α)) (p : Position) :
    (Aligned.entries ys).filter (fun x => key x = p) =
      Aligned.entries (ys.filter fun y => y.start key = p) := by
  rw [Aligned.entries, Aligned.entries, List.filter_filterMap, List.filterMap_filter]
  refine List.filterMap_congr fun y _ => ?_
  cases y with
  | entry x => by_cases h : key x = p <;> simp [ Aligned.entry?, Aligned.start, h]
  | absent q => simp [ Aligned.entry?]

/-- Placeholders are no entries. -/
theorem entries_append (xs : List α) (starts : List Position) :
    Aligned.entries (xs.map .entry ++ starts.map .absent) = xs := by
  have hnone : starts.filterMap (fun p => Aligned.entry? (.absent p : Aligned α)) = [] :=
    List.filterMap_eq_nil_iff.2 fun _ _ => rfl
  rw [Aligned.entries, List.filterMap_append, List.filterMap_map, List.filterMap_map,
    Function.comp_def, Function.comp_def, hnone, List.append_nil]
  exact List.filterMap_some

/-- The sequence `xs` with a placeholder for each missing start. -/
structure Padded (key : α → Position) (xs : List α) (missing : Finset Position)
    (ys : List (Aligned α)) : Prop where
  perm : ys.Perm (xs.map .entry ++ missing.sort.map .absent)
  sorted : ys.Pairwise fun x y => x.start key ≤ y.start key
  /-- Entries that start together keep their order. -/
  stable : ∀ p, (Aligned.entries ys).filter (fun x => key x = p) =
    xs.filter fun x => key x = p

theorem missingStarts_perm (present reference : List Position) :
    (missingStarts present reference).Perm (reference.toFinset \ present.toFinset).sort := by
  refine (List.perm_ext_iff_of_nodup (nodup_missingStarts _ _) (Finset.sort_nodup _ _)).2 ?_
  intro p
  simp [mem_missingStarts]

theorem padded_padStarts (key : α → Position) (xs : List α) (key' : β → Position) (zs : List β) :
    Padded key xs (startSet key' zs \ startSet key xs)
      (padStarts key (xs.map .entry) (zs.map key')) where
  perm := by
    have hmissing := missingStarts_perm (xs.map key) (zs.map key')
    have hpadded := padStarts_perm key (xs.map .entry) (zs.map key')
    rw [Aligned.map_start_entry] at hpadded
    exact hpadded.trans ((hmissing.map _).append_left _)
  sorted := sortByPosition_pairwise _ _
  stable p := by
    rw [filter_entries, padStarts, filter_sortByPosition, ← filter_entries, entries_append]

namespace Padded

theorem length_eq (h : Padded key xs missing ys) : ys.length = xs.length + missing.card := by
  simpa using h.perm.length_eq

theorem starts_perm (h : Padded key xs missing ys) :
    (ys.map (Aligned.start key)).Perm (xs.map key ++ missing.sort) := by
  have hperm := h.perm.map (Aligned.start key)
  rwa [List.map_append, Aligned.map_start_entry, Aligned.map_start_absent] at hperm

theorem startSet_eq (h : Padded key xs missing ys) :
    startSet (Aligned.start key) ys = startSet key xs ∪ missing := by
  rw [startSet, List.toFinset_eq_of_perm _ _ h.starts_perm, List.toFinset_append,
    Finset.sort_toFinset]
  rfl

theorem mem_iff (h : Padded key xs missing ys) {y : Aligned α} :
    y ∈ ys ↔ (∃ x ∈ xs, y = .entry x) ∨ ∃ p ∈ missing, y = .absent p := by
  rw [h.perm.mem_iff, List.mem_append, List.mem_map, List.mem_map]
  simp only [Finset.mem_sort, eq_comm]

/-- The entries are those of the sequence. -/
theorem entries_perm (h : Padded key xs missing ys) : (Aligned.entries ys).Perm xs := by
  have hperm := h.perm.filterMap Aligned.entry?
  rwa [← Aligned.entries, ← Aligned.entries, entries_append] at hperm

end Padded

variable {parts : List Part} {old : List Item} {starts : Finset Position}

/-- Each side of an alignment lacks the starts that only the other one has. -/
theorem exists_padded (parts : List Part) (old : List Item) :
    ∃ overlay padded,
      Padded Part.start parts (startSet Item.start old \ startSet Part.start parts) overlay ∧
      Padded Item.start old (startSet Part.start parts \ startSet Item.start old) padded ∧
      align parts old = if overlay.length = padded.length then .ok ⟨overlay, padded⟩
        else .error (.alignmentMismatch overlay.length padded.length) := by
  have hover := padded_padStarts Part.start parts Item.start old
  have hpad := padded_padStarts Item.start old (Aligned.start Part.start)
    (padStarts Part.start (parts.map .entry) (old.map Item.start))
  rw [hover.startSet_eq, Finset.union_sdiff_self_eq_union, Finset.union_sdiff_right] at hpad
  exact ⟨_, _, hover, hpad, rfl⟩

/-- Entries of a sequence that start where another one did before. -/
def surplus (key : α → Position) (xs : List α) : Nat := xs.length - (startSet key xs).card

/-- Two sequences cannot be aligned exactly when one has a greater surplus of repeated starts than
the other. The error tells both lengths. Otherwise each side is a stable sort of its entries and of
one placeholder for each start that it lacks. -/
theorem align_fails_iff_surplus (parts : List Part) (old : List Item) :
    ((∃ e, align parts old = .error e) ↔
        surplus Part.start parts ≠ surplus Item.start old) ∧
      (∀ e, align parts old = .error e → e = .alignmentMismatch
        (parts.length + (startSet Item.start old \ startSet Part.start parts).card)
        (old.length + (startSet Part.start parts \ startSet Item.start old).card)) ∧
      ∀ a, align parts old = .ok a →
        Padded Part.start parts (startSet Item.start old \ startSet Part.start parts) a.overlay ∧
        Padded Item.start old (startSet Part.start parts \ startSet Item.start old) a.old := by
  obtain ⟨overlay, padded, hover, hpad, halign⟩ := exists_padded parts old
  have hlen : overlay.length = padded.length ↔
      surplus Part.start parts = surplus Item.start old := by
    have hparts := card_startSet_le Part.start parts
    have hold := card_startSet_le Item.start old
    have hleft := Finset.card_sdiff_add_card (startSet Item.start old) (startSet Part.start parts)
    have hright := Finset.card_sdiff_add_card (startSet Part.start parts) (startSet Item.start old)
    rw [Finset.union_comm] at hright
    rw [hover.length_eq, hpad.length_eq, surplus, surplus]
    omega
  rw [← hover.length_eq, ← hpad.length_eq, halign]
  by_cases heq : overlay.length = padded.length
  · rw [if_pos heq]
    refine ⟨?_, fun e he => ?_, fun a ha => ?_⟩
    · simp [hlen.1 heq]
    · cases he
    · obtain rfl := Except.ok.inj ha
      exact ⟨hover, hpad⟩
  · rw [if_neg heq]
    refine ⟨?_, fun e he => ?_, fun a ha => ?_⟩
    · exact iff_of_true ⟨_, rfl⟩ (mt hlen.2 heq)
    · exact (Except.error.inj he).symm
    · cases ha

/-- One side of an alignment by the starts of both. -/
structure Merged (key : α → Position) (xs : List α) (starts : Finset Position)
    (ys : List (Aligned α)) : Prop where
  starts_eq : ys.map (Aligned.start key) = starts.sort
  ascending : (ys.map (Aligned.start key)).Pairwise (· < ·)
  entry_eq : ∀ y ∈ ys, ∀ x ∈ xs, key x = y.start key → y = .entry x
  absent_eq : ∀ y ∈ ys, (∀ x ∈ xs, key x ≠ y.start key) → y = .absent (y.start key)
  /-- Every entry is there once. -/
  entries : (Aligned.entries ys).Perm xs

theorem Padded.merged (h : Padded key xs missing ys) (hnodup : (xs.map key).Nodup)
    (hdisj : Disjoint (startSet key xs) missing) :
    Merged key xs (startSet key xs ∪ missing) ys := by
  have hstarts : (ys.map (Aligned.start key)).Nodup := by
    rw [h.starts_perm.nodup_iff]
    refine hnodup.append (Finset.sort_nodup _ _) fun p hp hmissing => ?_
    exact Finset.disjoint_left.1 hdisj (List.mem_toFinset.2 hp) ((Finset.mem_sort _).1 hmissing)
  have hle : (ys.map (Aligned.start key)).Pairwise (· ≤ ·) := List.pairwise_map.2 h.sorted
  have hasc := (hle.sortedLE.sortedLT_of_nodup hstarts).pairwise
  refine ⟨?_, hasc, fun y hy x hx hxy => ?_, fun y hy hfree => ?_, h.entries_perm⟩
  · refine hasc.eq_of_mem_iff (Finset.sortedLT_sort _).pairwise fun p => ?_
    rw [Finset.mem_sort, ← h.startSet_eq, startSet, List.mem_toFinset]
  · rcases h.mem_iff.1 hy with ⟨x', hx', rfl⟩ | ⟨p, hp, rfl⟩
    · rw [List.inj_on_of_nodup_map hnodup hx hx' hxy]
    · exact absurd hp (Finset.disjoint_left.1 hdisj (mem_startSet.2 ⟨x, hx, hxy⟩))
  · rcases h.mem_iff.1 hy with ⟨x, hx, rfl⟩ | ⟨p, hp, rfl⟩
    · exact absurd rfl (hfree x hx)
    · rfl

/-- A row with an entry has a finding, whatever the old layout is said to be. -/
theorem exists_findingOfRow {row : Aligned Part × Aligned Item}
    (h : Alignment.Row parts old row) (l : Layout) : ∃ f, findingOfRow l row = .ok f := by
  cases h with
  | @both p o hp ho h => cases p <;> exact ⟨_, rfl⟩
  | @overlayOnly p hp h => cases p <;> exact ⟨_, rfl⟩
  | oldOnly ho h => exact ⟨_, rfl⟩

theorem Alignment.Row.not_absent {row : Aligned Part × Aligned Item}
    (h : Alignment.Row parts old row) : ¬ ∃ p q, row = (.absent p, .absent q) := by
  rintro ⟨p, q, rfl⟩
  cases h

/-- Two sequences without a repeated start are aligned, in whatever order they are given. There is
one row for each start, it has the entries of that start, and it can be classified. -/
theorem align_distinct_starts (hparts : (parts.map Part.start).Nodup)
    (hold : (old.map Item.start).Nodup) :
    ∃ a, align parts old = .ok a ∧
      Merged Part.start parts (startSet Part.start parts ∪ startSet Item.start old) a.overlay ∧
      Merged Item.start old (startSet Part.start parts ∪ startSet Item.start old) a.old ∧
      (∀ row ∈ a.rows, row.1.start Part.start = row.2.start Item.start ∧
        ¬ ∃ p q, row = (.absent p, .absent q)) ∧
      ∀ l, ∃ fs, classify a l = .ok fs := by
  obtain ⟨overlay, padded, hover, hpad, halign⟩ := exists_padded parts old
  obtain ⟨a, ha, hexact⟩ := Alignment.exists_align hparts hold
  obtain rfl : a = ⟨overlay, padded⟩ := by
    rw [halign] at ha
    split_ifs at ha
    exact (Except.ok.inj ha).symm
  have hleft := hover.merged hparts Finset.disjoint_sdiff
  have hright := hpad.merged hold Finset.disjoint_sdiff
  rw [Finset.union_sdiff_self_eq_union] at hleft hright
  rw [Finset.union_comm] at hright
  refine ⟨_, ha, hleft, hright, fun row hrow => ⟨?_, ?_⟩, fun l => ?_⟩
  · have heq := hleft.starts_eq.trans hright.starts_eq.symm
    exact ((mem_zip_iff heq (hleft.ascending.imp ne_of_lt)).1 hrow).2.2
  · exact ((hexact.mem_rows row).1 hrow).not_absent
  · obtain ⟨fs, hfs⟩ := exists_mapM_ok fun row hrow =>
      exists_findingOfRow ((hexact.mem_rows row).1 hrow) l
    exact ⟨fs, by rw [classify, if_pos hexact.length_eq, hfs]⟩

/-- Both sequences are given from the right to the left, and each lacks starts of the other. -/
theorem align_distinct_starts_reversed :
    ∃ a, align [.item (.inplace "cap" "uint128" 40 16), .dirty ⟨16, 32⟩]
        Layout.sampleBefore.reverse = .ok a ∧
      a.overlay.map (Aligned.start Part.start) = [0, 16, 32, 40] ∧
      a.old.map (Aligned.start Item.start) = [0, 16, 32, 40] ∧
      ∃ fs, classify a .sampleBefore = .ok fs := by
  obtain ⟨a, ha, hover, hold, _, hclassify⟩ := align_distinct_starts
    (show ([.item (.inplace "cap" "uint128" 40 16), .dirty ⟨16, 32⟩].map Part.start).Nodup by
      decide)
    (show (Layout.sampleBefore.reverse.map Item.start).Nodup by decide)
  have hsort : Finset.sort [0, 16, 32, 40].toFinset = [0, 16, 32, 40] :=
    (List.toFinset_sort _ (by decide)).2 (by decide)
  refine ⟨a, ha, hover.starts_eq.trans ?_, hold.starts_eq.trans ?_, hclassify _⟩
  all_goals
    rw [← hsort]
    congr 1
    decide

end StorageUpgrade
