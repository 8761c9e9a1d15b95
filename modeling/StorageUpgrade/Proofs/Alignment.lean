import StorageUpgrade.Alignment
import StorageUpgrade.Proofs.Sorting

/-!
# Alignment of sequences with distinct starts

Padding adds one placeholder for each missing start and sorts. When no start is repeated within a
sequence, the two padded sequences have the same starts in the same order, so they align, and a row
pairs the entries of its start with at most one placeholder.
-/
namespace StorageUpgrade

variable {α β : Type}

theorem mem_missingStarts {present reference : List Position} {p : Position} :
    p ∈ missingStarts present reference ↔ p ∈ reference ∧ p ∉ present := by
  induction reference generalizing present with
  | nil => simp [missingStarts]
  | cons q qs ih =>
    unfold missingStarts
    split_ifs with hq
    · rw [ih, List.mem_cons]
      grind
    · rw [List.mem_cons, ih, List.mem_cons, List.mem_cons]
      grind

theorem nodup_missingStarts (present reference : List Position) :
    (missingStarts present reference).Nodup := by
  induction reference generalizing present with
  | nil => exact .nil
  | cons q qs ih =>
    unfold missingStarts
    split_ifs with hq
    · exact ih present
    · refine List.nodup_cons.2 ⟨fun hmem => ?_, ih _⟩
      exact (mem_missingStarts.1 hmem).2 (.head _)

namespace Aligned

theorem map_start_entry (key : α → Position) (xs : List α) :
    (xs.map entry).map (start key) = xs.map key :=
  List.map_map

theorem map_start_absent (key : α → Position) (ps : List Position) :
    (ps.map absent).map (start key) = ps := by
  rw [List.map_map]
  exact List.map_id ps

end Aligned

section Padding

variable {key : α → Position} {base : List (Aligned α)} {reference : List Position}

theorem padStarts_perm (key : α → Position) (base : List (Aligned α))
    (reference : List Position) :
    (padStarts key base reference).Perm
      (base ++ (missingStarts (base.map (Aligned.start key)) reference).map .absent) :=
  sortByPosition_perm _ _

theorem mem_padStarts {x : Aligned α} :
    x ∈ padStarts key base reference ↔
      x ∈ base ∨ ∃ p ∈ reference, p ∉ base.map (Aligned.start key) ∧ x = .absent p := by
  rw [(padStarts_perm key base reference).mem_iff, List.mem_append, List.mem_map]
  simp only [mem_missingStarts]
  grind

theorem mem_starts_padStarts {p : Position} :
    p ∈ (padStarts key base reference).map (Aligned.start key) ↔
      p ∈ base.map (Aligned.start key) ∨ p ∈ reference := by
  rw [((padStarts_perm key base reference).map _).mem_iff, List.map_append,
    Aligned.map_start_absent, List.mem_append, mem_missingStarts]
  tauto

/-- A sequence in order that lacks no start is left as it is. -/
theorem padStarts_eq_self (hsorted : base.Pairwise fun x y => x.start key ≤ y.start key)
    (hsub : ∀ p ∈ reference, p ∈ base.map (Aligned.start key)) :
    padStarts key base reference = base := by
  have hnone : missingStarts (base.map (Aligned.start key)) reference = [] := by
    rw [List.eq_nil_iff_forall_not_mem]
    intro p hp
    obtain ⟨href, hmissing⟩ := mem_missingStarts.1 hp
    exact hmissing (hsub p href)
  rw [padStarts, hnone, List.map_nil, List.append_nil]
  exact List.mergeSort_of_pairwise (by simpa using hsorted)

/-- Padding keeps starts distinct, and sorting makes them ascend. -/
theorem starts_padStarts_ascending (h : (base.map (Aligned.start key)).Nodup) :
    ((padStarts key base reference).map (Aligned.start key)).Pairwise (· < ·) := by
  have hnodup : ((padStarts key base reference).map (Aligned.start key)).Nodup := by
    rw [((padStarts_perm key base reference).map _).nodup_iff, List.map_append,
      Aligned.map_start_absent]
    refine h.append (nodup_missingStarts _ _) fun p hp hmiss => ?_
    exact (mem_missingStarts.1 hmiss).2 hp
  have hle : ((padStarts key base reference).map (Aligned.start key)).Pairwise (· ≤ ·) :=
    List.pairwise_map.2 (sortByPosition_pairwise _ _)
  exact (hle.sortedLE.sortedLT_of_nodup hnodup).pairwise

end Padding

/-- Lists with the same distinct keys are zipped by key. -/
theorem mem_zip_iff {f : α → Position} {g : β → Position} {as : List α} {bs : List β}
    (heq : as.map f = bs.map g) (hnodup : (as.map f).Nodup) {a : α} {b : β} :
    (a, b) ∈ as.zip bs ↔ a ∈ as ∧ b ∈ bs ∧ f a = g b := by
  induction as generalizing bs with
  | nil => simp
  | cons x as ih =>
    cases bs with
    | nil => simp at heq
    | cons y bs =>
      rw [List.map_cons, List.map_cons, List.cons.injEq] at heq
      obtain ⟨hxy, heq⟩ := heq
      obtain ⟨hx, hnodup⟩ := List.nodup_cons.1 hnodup
      have hy : g y ∉ bs.map g := heq ▸ hxy ▸ hx
      rw [List.zip_cons_cons, List.mem_cons, ih heq hnodup, List.mem_cons, List.mem_cons,
        Prod.mk.injEq]
      constructor
      · rintro (⟨rfl, rfl⟩ | ⟨ha, hb, hab⟩)
        · exact ⟨.inl rfl, .inl rfl, hxy⟩
        · exact ⟨.inr ha, .inr hb, hab⟩
      · rintro ⟨rfl | ha, rfl | hb, hab⟩
        · exact .inl ⟨rfl, rfl⟩
        · exact absurd (hxy ▸ hab ▸ List.mem_map_of_mem hb) hy
        · exact absurd (hxy ▸ hab ▸ List.mem_map_of_mem ha) hx
        · exact .inr ⟨ha, hb, hab⟩

namespace Alignment

open Overlay

/-- The rows of an alignment of these sequences. -/
inductive Row (parts : List Part) (old : List Item) : Aligned Part × Aligned Item → Prop
  | both {p o} (hp : p ∈ parts) (ho : o ∈ old) (h : p.start = o.start) :
      Row parts old (.entry p, .entry o)
  | overlayOnly {p} (hp : p ∈ parts) (h : ∀ o ∈ old, o.start ≠ p.start) :
      Row parts old (.entry p, .absent p.start)
  | oldOnly {o} (ho : o ∈ old) (h : ∀ p ∈ parts, p.start ≠ o.start) :
      Row parts old (.absent o.start, .entry o)

/-- First byte of a row. -/
def rowStart (row : Aligned Part × Aligned Item) : Position := row.1.start Part.start

/-- The alignment has one row for each start, and loses no entry. -/
structure Exact (a : Alignment) (parts : List Part) (old : List Item) : Prop where
  length_eq : a.overlay.length = a.old.length
  mem_rows : ∀ row, row ∈ a.rows ↔ Row parts old row
  ascending : (a.rows.map rowStart).Pairwise (· < ·)
  overlay_perm : ∃ missing : List Position,
    (a.rows.map Prod.fst).Perm (parts.map .entry ++ missing.map .absent)

variable {parts : List Part} {old : List Item}

/-- The rows of the padded sequences, once these have the same starts. -/
theorem mem_zip_padStarts {overlay : List (Aligned Part)} {padded : List (Aligned Item)}
    (hover : overlay = padStarts Part.start (parts.map .entry) (old.map Item.start))
    (hpad : padded = padStarts Item.start (old.map .entry)
      (overlay.map (Aligned.start Part.start)))
    (heq : overlay.map (Aligned.start Part.start) = padded.map (Aligned.start Item.start))
    (hasc : (overlay.map (Aligned.start Part.start)).Pairwise (· < ·))
    (row : Aligned Part × Aligned Item) : row ∈ overlay.zip padded ↔ Row parts old row := by
  have hx : ∀ x, x ∈ overlay ↔ (∃ p ∈ parts, x = .entry p) ∨
      ∃ o ∈ old, (∀ p ∈ parts, p.start ≠ o.start) ∧ x = .absent o.start := by
    intro x
    rw [hover, mem_padStarts, Aligned.map_start_entry]
    simp [eq_comm]
  have hy : ∀ y, y ∈ padded ↔ (∃ o ∈ old, y = .entry o) ∨
      ∃ x ∈ overlay, (∀ o ∈ old, o.start ≠ x.start Part.start) ∧
        y = .absent (x.start Part.start) := by
    intro y
    rw [hpad, mem_padStarts, Aligned.map_start_entry]
    simp [eq_comm]
  obtain ⟨x, y⟩ := row
  rw [mem_zip_iff heq (hasc.imp ne_of_lt), hx, hy]
  constructor
  · rintro ⟨⟨p, hp, rfl⟩ | ⟨o, ho, hfree, rfl⟩, ⟨o', ho', rfl⟩ | ⟨x', hx', hfree', rfl⟩, hstart⟩
    · exact .both hp ho' hstart
    · have hstart : p.start = x'.start Part.start := hstart
      rw [← hstart] at hfree' ⊢
      exact .overlayOnly hp hfree'
    · have hstart : o.start = o'.start := hstart
      rw [hstart] at hfree ⊢
      exact .oldOnly ho' hfree
    · exact absurd hstart (hfree' o ho)
  · rintro (⟨hp, ho, h⟩ | ⟨hp, h⟩ | ⟨ho, h⟩)
    · exact ⟨.inl ⟨_, hp, rfl⟩, .inl ⟨_, ho, rfl⟩, h⟩
    · exact ⟨.inl ⟨_, hp, rfl⟩, .inr ⟨_, (hx _).2 (.inl ⟨_, hp, rfl⟩), h, rfl⟩, rfl⟩
    · exact ⟨.inr ⟨_, ho, h, rfl⟩, .inl ⟨_, ho, rfl⟩, rfl⟩

/-- Sequences without a repeated start are aligned. -/
theorem exists_align (hparts : (parts.map Part.start).Nodup) (hold : (old.map Item.start).Nodup) :
    ∃ a, align parts old = .ok a ∧ a.Exact parts old := by
  obtain ⟨overlay, hover⟩ : ∃ overlay, overlay =
    padStarts Part.start (parts.map .entry) (old.map Item.start) := ⟨_, rfl⟩
  obtain ⟨padded, hpad⟩ : ∃ padded, padded =
    padStarts Item.start (old.map .entry) (overlay.map (Aligned.start Part.start)) := ⟨_, rfl⟩
  have hasc : (overlay.map (Aligned.start Part.start)).Pairwise (· < ·) := by
    rw [hover]
    exact starts_padStarts_ascending (by rwa [Aligned.map_start_entry])
  have hasc' : (padded.map (Aligned.start Item.start)).Pairwise (· < ·) := by
    rw [hpad]
    exact starts_padStarts_ascending (by rwa [Aligned.map_start_entry])
  -- The overlay has all the old starts, so padding the old side gives it the same starts.
  have heq : overlay.map (Aligned.start Part.start) = padded.map (Aligned.start Item.start) := by
    refine hasc.eq_of_mem_iff hasc' fun p => ?_
    have hsub : p ∈ (old.map Aligned.entry).map (Aligned.start Item.start) →
        p ∈ overlay.map (Aligned.start Part.start) := by
      intro hp
      rw [hover, mem_starts_padStarts]
      exact .inr (by rwa [Aligned.map_start_entry] at hp)
    rw [hpad, mem_starts_padStarts]
    tauto
  have hlen : overlay.length = padded.length := by simpa using congrArg List.length heq
  have hfst : (overlay.zip padded).map Prod.fst = overlay := List.map_fst_zip hlen.le
  refine ⟨⟨overlay, padded⟩, ?_, hlen, mem_zip_padStarts hover hpad heq hasc, ?_, ?_⟩
  · rw [hpad, hover] at hlen ⊢
    exact if_pos hlen
  · have hmap : (overlay.zip padded).map rowStart =
        ((overlay.zip padded).map Prod.fst).map (Aligned.start Part.start) := by
      rw [List.map_map]
      rfl
    rwa [rows, hmap, hfst]
  · rw [rows, hfst, hover]
    exact ⟨_, padStarts_perm _ _ _⟩

end Alignment

end StorageUpgrade
