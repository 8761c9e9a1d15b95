import Mathlib.Data.List.Sort
import StorageUpgrade.Layout

/-!
# Sorting by position

Sorting keeps the elements of a list, puts their keys in order and leaves elements with the same key
in the order that they had. No other list has these three properties. Without a repeated key the
result does not depend on the order of the list at all.
-/
namespace StorageUpgrade

variable {α : Type} {key : α → Position} {xs ys zs : List α}

theorem sortByPosition_perm (key : α → Position) (xs : List α) :
    (sortByPosition key xs).Perm xs :=
  List.mergeSort_perm _ _

theorem decide_le_trans (key : α → Position) (a b c : α) (hab : decide (key a ≤ key b) = true)
    (hbc : decide (key b ≤ key c) = true) : decide (key a ≤ key c) = true :=
  decide_eq_true ((of_decide_eq_true hab).trans (of_decide_eq_true hbc))

theorem decide_le_total (key : α → Position) (a b : α) :
    (decide (key a ≤ key b) || decide (key b ≤ key a)) = true := by
  simpa using le_total (key a) (key b)

theorem sortByPosition_pairwise (key : α → Position) (xs : List α) :
    (sortByPosition key xs).Pairwise fun a b => key a ≤ key b := by
  have h := List.pairwise_mergeSort (decide_le_trans key) (decide_le_total key) xs
  exact h.imp of_decide_eq_true

/-- Sorting is stable: what has the same key keeps its order. -/
theorem filter_sortByPosition (key : α → Position) (xs : List α) (p : Position) :
    (sortByPosition key xs).filter (fun x => key x = p) = xs.filter fun x => key x = p := by
  have hequal : (xs.filter fun x => key x = p).Pairwise fun a b =>
      decide (key a ≤ key b) = true := by
    refine List.pairwise_of_forall_mem_list fun a ha b hb => ?_
    have ha : key a = p := by simpa using (List.mem_filter.1 ha).2
    have hb : key b = p := by simpa using (List.mem_filter.1 hb).2
    exact decide_eq_true (ha.trans hb.symm).le
  have hsub : (xs.filter fun x => key x = p).Sublist (sortByPosition key xs) :=
    List.sublist_mergeSort (decide_le_trans key) (decide_le_total key) hequal List.filter_sublist
  have hsub := hsub.filter fun x => key x = p
  rw [List.filter_filter] at hsub
  simp only [Bool.and_self] at hsub
  have hlen := ((sortByPosition_perm key xs).filter fun x => key x = p).length_eq
  exact (hsub.eq_of_length hlen.symm).symm

/-- The list `ys` has the elements of `xs` in the order of their keys. -/
structure StableSort (key : α → Position) (xs ys : List α) : Prop where
  perm : ys.Perm xs
  sorted : ys.Pairwise fun a b => key a ≤ key b
  /-- Elements with the same key keep their order. -/
  stable : ∀ p, (ys.filter fun x => key x = p) = xs.filter fun x => key x = p

theorem stableSort_sortByPosition (key : α → Position) (xs : List α) :
    StableSort key xs (sortByPosition key xs) where
  perm := sortByPosition_perm key xs
  sorted := sortByPosition_pairwise key xs
  stable := filter_sortByPosition key xs

/-- The parts of a list with the same key hold all of its elements. -/
theorem mem_iff_of_filter_eq
    (h : ∀ p, (ys.filter fun x => key x = p) = zs.filter fun x => key x = p) (x : α) :
    x ∈ ys ↔ x ∈ zs := by
  have hx : x ∈ ys.filter (fun y => key y = key x) ↔ x ∈ zs.filter fun y => key y = key x := by
    rw [h]
  simpa using hx

/-- In the order of its keys a list is determined by its parts with the same key. -/
theorem eq_of_filter_eq (hys : ys.Pairwise fun a b => key a ≤ key b)
    (hzs : zs.Pairwise fun a b => key a ≤ key b)
    (h : ∀ p, (ys.filter fun x => key x = p) = zs.filter fun x => key x = p) : ys = zs := by
  induction ys generalizing zs with
  | nil =>
    rw [eq_comm, List.eq_nil_iff_forall_not_mem]
    intro z hz
    cases (mem_iff_of_filter_eq h z).2 hz
  | cons y ys ih =>
    cases zs with
    | nil => cases (mem_iff_of_filter_eq h y).1 (.head _)
    | cons z zs =>
      obtain ⟨hy, hys'⟩ := List.pairwise_cons.1 hys
      obtain ⟨hz, hzs'⟩ := List.pairwise_cons.1 hzs
      -- Each list has the head of the other one, so the heads have the same key.
      have hyz : key y ≤ key z := by
        rcases List.mem_cons.1 ((mem_iff_of_filter_eq h z).2 (.head _)) with rfl | hmem
        · exact le_rfl
        · exact hy z hmem
      have hzy : key z ≤ key y := by
        rcases List.mem_cons.1 ((mem_iff_of_filter_eq h y).1 (.head _)) with rfl | hmem
        · exact le_rfl
        · exact hz y hmem
      have hhead := h (key y)
      rw [List.filter_cons_of_pos (by simp),
        List.filter_cons_of_pos (by simpa using le_antisymm hzy hyz)] at hhead
      obtain ⟨rfl, -⟩ := List.cons.inj hhead
      have htail : ∀ p, (ys.filter fun x => key x = p) = zs.filter fun x => key x = p := by
        intro p
        have hp := h p
        simp only [List.filter_cons] at hp
        split at hp
        · exact (List.cons.inj hp).2
        · exact hp
      rw [ih hys' hzs' htail]

/-- Sorting is the only way to put a list in the order of its keys stably. -/
theorem stableSort_iff : StableSort key xs ys ↔ ys = sortByPosition key xs := by
  constructor
  · intro h
    have hsort := stableSort_sortByPosition key xs
    apply eq_of_filter_eq h.sorted hsort.sorted
    intro p
    rw [h.stable, hsort.stable]
  · rintro rfl
    exact stableSort_sortByPosition key xs

/-- The keys of a sorted list do not depend on the order before. -/
theorem map_sortByPosition_of_perm (h : xs.Perm ys) :
    (sortByPosition key xs).map key = (sortByPosition key ys).map key := by
  have hperm := (sortByPosition_perm key xs).trans (h.trans (sortByPosition_perm key ys).symm)
  apply (hperm.map key).eq_of_pairwise (fun a b _ _ => le_antisymm)
  · exact List.pairwise_map.2 (sortByPosition_pairwise key xs)
  · exact List.pairwise_map.2 (sortByPosition_pairwise key ys)

/-- Without a repeated key the order before does not matter. -/
theorem sortByPosition_eq_of_perm (h : xs.Perm ys) (hkeys : (xs.map key).Nodup) :
    sortByPosition key xs = sortByPosition key ys := by
  have hxs := sortByPosition_perm key xs
  have hys := (sortByPosition_perm key ys).trans h.symm
  apply (hxs.trans hys.symm).eq_of_pairwise ?_ (sortByPosition_pairwise key xs)
    (sortByPosition_pairwise key ys)
  intro a b ha hb hab hba
  exact List.inj_on_of_nodup_map hkeys (hxs.mem_iff.1 ha) (hys.mem_iff.1 hb)
    (le_antisymm hab hba)

/-- Without a repeated key the keys ascend strictly. -/
theorem sortByPosition_ascending (hkeys : (xs.map key).Nodup) :
    (sortByPosition key xs).Pairwise fun a b => key a < key b := by
  have hnodup : ((sortByPosition key xs).map key).Nodup :=
    ((sortByPosition_perm key xs).map key).nodup_iff.2 hkeys
  have hne := List.pairwise_map.1 hnodup
  exact (sortByPosition_pairwise key xs).imp₂ (fun a b => lt_of_le_of_ne) hne

end StorageUpgrade
