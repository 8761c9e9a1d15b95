import Mathlib.Algebra.GroupWithZero.Nat
import Mathlib.Order.Interval.Finset.Nat
import Mathlib.Data.Finset.Union
import Mathlib.Data.List.Pairwise
import StorageUpgrade.Layout

/-!
# The bytes of ranges and layouts

A range is the set of its bytes, and a layout the union of those of its variables. The Boolean tests
of the comparison look at end points only; the lemmas here say which bytes they decide about. In a
well-formed layout each byte belongs to one variable at most.
-/
namespace StorageUpgrade

namespace ByteRange

variable {a b r : ByteRange} {p : Position}

@[grind =] theorem covers_iff : r.Covers p ↔ r.start ≤ p ∧ p < r.stop := Iff.rfl

/-- The two ranges share a byte. -/
def Meets (a b : ByteRange) : Prop := ∃ p, a.Covers p ∧ b.Covers p

theorem meets_iff : a.Meets b ↔ max a.start b.start < min a.stop b.stop := by
  constructor
  · rintro ⟨p, ⟨ha, ha'⟩, hb, hb'⟩
    lia
  · intro h
    exact ⟨max a.start b.start, by grind, by grind⟩

instance (a b : ByteRange) : Decidable (a.Meets b) := decidable_of_iff _ meets_iff.symm

/-- Between the end points of `b`. -/
def Within (a b : ByteRange) : Prop := b.start ≤ a.start ∧ a.stop ≤ b.stop

instance (a b : ByteRange) : Decidable (a.Within b) := inferInstanceAs (Decidable (_ ∧ _))

theorem Within.refl (a : ByteRange) : a.Within a := ⟨le_rfl, le_rfl⟩

theorem Within.trans {c : ByteRange} (hab : a.Within b) (hbc : b.Within c) : a.Within c :=
  ⟨hbc.1.trans hab.1, hab.2.trans hbc.2⟩

theorem Within.covers (h : a.Within b) (hp : a.Covers p) : b.Covers p :=
  ⟨h.1.trans hp.1, hp.2.trans_le h.2⟩

/-- For ranges that hold a byte the test on end points is the test on bytes. -/
theorem overlaps_iff_meets (ha : a.start < a.stop) (hb : b.start < b.stop) :
    a.overlaps b = true ↔ a.Meets b := by
  rw [meets_iff]
  simp only [overlaps, Bool.and_eq_true, decide_eq_true_eq]
  lia

/-- The bytes of the range. -/
def bytes (r : ByteRange) : Finset Position := Finset.Ico r.start r.stop

@[simp] theorem mem_bytes : p ∈ r.bytes ↔ r.Covers p := Finset.mem_Ico

@[simp] theorem card_bytes (r : ByteRange) : r.bytes.card = r.width := Nat.card_Ico _ _

/-- Ranges that hold a byte each and follow one another. -/
def Ascending (rs : List ByteRange) : Prop :=
  (∀ r ∈ rs, r.start < r.stop) ∧ rs.Pairwise fun a b => a.stop ≤ b.start

theorem Ascending.nil : Ascending [] := ⟨by simp, .nil⟩

theorem ascending_cons {rs : List ByteRange} :
    Ascending (r :: rs) ↔
      r.start < r.stop ∧ (∀ q ∈ rs, r.stop ≤ q.start) ∧ Ascending rs := by
  simp only [Ascending, List.forall_mem_cons, List.pairwise_cons]
  tauto

theorem Ascending.sublist {as bs : List ByteRange} (hbs : Ascending bs) (h : as.Sublist bs) :
    Ascending as :=
  ⟨fun a ha => hbs.1 a (h.mem ha), hbs.2.sublist h⟩

theorem Ascending.starts {rs : List ByteRange} (h : Ascending rs) :
    (rs.map start).Pairwise (· < ·) := by
  refine List.pairwise_map.2 (h.2.imp_of_mem fun {a b} ha _ hab => ?_)
  exact (h.1 a ha).trans_le hab

/-- Widths of ascending ranges add up to the number of bytes that they hold together. -/
theorem Ascending.sum_width {rs : List ByteRange} (h : Ascending rs) :
    (rs.map width).sum = (rs.toFinset.biUnion bytes).card := by
  induction rs with
  | nil => rfl
  | cons r rs ih =>
    obtain ⟨_, hr, hrs⟩ := ascending_cons.1 h
    have hdisj : Disjoint r.bytes (rs.toFinset.biUnion bytes) := by
      rw [Finset.disjoint_left]
      intro p hp hq
      simp only [Finset.mem_biUnion, List.mem_toFinset, mem_bytes] at hp hq
      obtain ⟨q, hq, hpq⟩ := hq
      have := hr q hq
      grind
    rw [List.toFinset_cons, Finset.biUnion_insert, Finset.card_union_of_disjoint hdisj, ← ih hrs]
    simp

end ByteRange

attribute [grind =] Item.range_start Item.range_stop

namespace Layout

variable {l : Layout} {i j : Item} {p : Position}

/-- Some variable of the layout occupies the byte. -/
def Covers (l : Layout) (p : Position) : Prop := ∃ i ∈ l, i.range.Covers p

instance (l : Layout) (p : Position) : Decidable (l.Covers p) :=
  inferInstanceAs (Decidable (∃ i ∈ l, _))

theorem not_covers_nil (p : Position) : ¬ Covers [] p := by simp [Covers]

theorem covers_cons : Covers (i :: l) p ↔ i.range.Covers p ∨ l.Covers p := by simp [Covers]

/-- The bytes that the variables occupy. -/
def bytes (l : Layout) : Finset Position := l.toFinset.biUnion fun i => i.range.bytes

@[simp] theorem mem_bytes : p ∈ l.bytes ↔ l.Covers p := by simp [bytes, Covers]

instance (l : Layout) : Decidable l.WellFormed := inferInstanceAs (Decidable (_ ∧ _))

theorem wellFormed_iff_ascending : l.WellFormed ↔ ByteRange.Ascending (l.map Item.range) := by
  simp [WellFormed, ByteRange.Ascending, List.pairwise_map]

theorem wellFormed_cons :
    WellFormed (i :: l) ↔ i.start < i.stop ∧ (∀ j ∈ l, i.stop ≤ j.start) ∧ l.WellFormed := by
  simp only [WellFormed, List.forall_mem_cons, List.pairwise_cons]
  tauto

/-- It is enough that each variable ends before its successor starts. -/
theorem wellFormed_iff_isChain :
    l.WellFormed ↔ (∀ i ∈ l, i.start < i.stop) ∧ l.IsChain fun a b => a.stop ≤ b.start := by
  refine and_congr_right fun hpos => ⟨List.Pairwise.isChain, fun h => ?_⟩
  induction l with
  | nil => exact .nil
  | cons i l ih =>
    have hl := ih (fun j hj => hpos j (by simp [hj])) h.tail
    refine List.pairwise_cons.2 ⟨fun j hj => ?_, hl⟩
    cases l with
    | nil => simp at hj
    | cons k l =>
      have hik : i.stop ≤ k.start := h.rel
      rcases List.mem_cons.1 hj with rfl | hj
      · exact hik
      · have hk := hpos k (by simp)
        have hkj := List.rel_of_pairwise_cons hl hj
        lia

namespace WellFormed

theorem pos (h : l.WellFormed) (hi : i ∈ l) : i.start < i.stop := h.1 i hi

/-- Of two different variables one ends before the other starts. -/
theorem apart (h : l.WellFormed) (hi : i ∈ l) (hj : j ∈ l) (hne : i ≠ j) :
    i.stop ≤ j.start ∨ j.stop ≤ i.start := by
  let R : Item → Item → Prop := fun a b => a.stop ≤ b.start ∨ b.stop ≤ a.start
  have : Std.Symm R := ⟨fun _ _ => Or.symm⟩
  exact List.Pairwise.forall (R := R) (h.2.imp Or.inl) hi hj hne

/-- A byte belongs to one variable at most. -/
theorem eq_of_covers (h : l.WellFormed) (hi : i ∈ l) (hj : j ∈ l) (hip : i.range.Covers p)
    (hjp : j.range.Covers p) : i = j := by
  by_contra hne
  have := h.apart hi hj hne
  grind

theorem covers_start (h : l.WellFormed) (hi : i ∈ l) : i.range.Covers i.start :=
  ⟨le_rfl, h.pos hi⟩

/-- Different variables start at different bytes. -/
theorem eq_of_start (h : l.WellFormed) (hi : i ∈ l) (hj : j ∈ l) (hij : i.start = j.start) :
    i = j :=
  h.eq_of_covers hi hj (h.covers_start hi) (hij ▸ h.covers_start hj)

theorem nodup_starts (h : l.WellFormed) : (l.map Item.start).Nodup := by
  have hasc := (wellFormed_iff_ascending.1 h).starts
  rw [List.map_map] at hasc
  exact hasc.imp ne_of_lt

end WellFormed

/-- Every variable is as long as its type. -/
def Sized (l : Layout) : Prop := ∀ i ∈ l, i.stop = i.start + i.type.size

instance (l : Layout) : Decidable l.Sized := inferInstanceAs (Decidable (∀ i ∈ l, _))

/-- Identical variables that start together occupy the same bytes. -/
theorem Sized.range_eq {k : Layout} (hl : l.Sized) (hk : k.Sized) (hi : i ∈ l) (hj : j ∈ k)
    (hstart : i.start = j.start) (hid : i.Identical j) : i.range = j.range := by
  have hstop : i.stop = j.stop := by rw [hl i hi, hk j hj, hstart, hid.2.2.1]
  rw [Item.range, Item.range, hstart, hstop]

end Layout

end StorageUpgrade
