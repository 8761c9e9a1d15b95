import StorageUpgrade.Layout.Document
import StorageUpgrade.Proofs.Alignment
import StorageUpgrade.Proofs.Bytes
import StorageUpgrade.Proofs.Traversal

/-!
# What the layout of a document is

A record resolves when its type is known, its numbers can be read and its bytes are positions. Then
it has one variable, which starts at byte `32 * slot + offset` and is as long as its type. The layout
of a document is a stable sort of these variables.
-/
namespace StorageUpgrade

namespace Document

variable {d : Document} {r : Record} {t : TypeDef} {i : Item} {label : String}
variable {name : NumericField} {n : Numeral} {p : Position}

theorem field_eq_ok_iff : field label name n = .ok p ↔ n.value? = some p := by
  unfold field
  cases n.value? <;> simp

theorem guardField_eq_ok_iff {ok : Prop} [Decidable ok] {u : Unit} :
    guardField ok label name n = .ok u ↔ ok := by
  unfold guardField
  split_ifs with h <;> simp [h]

/-- The type and the numbers of a record, all of them within their bounds. -/
structure Resolves (d : Document) (r : Record) (t : TypeDef) (slot offset size : Position) :
    Prop where
  type_eq : d.resolve r.typeKey = some t
  size_eq : t.size.value? = some size
  slot_eq : r.slot.value? = some slot
  offset_eq : r.offset.value? = some offset
  slot_lt : slot < Position.slotLimit
  offset_lt : offset < UInt64.size
  stop_lt : slot * Position.slotSize + offset + size < Position.limit

/-- The variable of a record with this type and these numbers. -/
def Record.place (r : Record) (t : TypeDef) (slot offset size : Position) : Item :=
  ⟨r.label, slot * Position.slotSize + offset, slot * Position.slotSize + offset + size,
    ⟨t.label, t.encoding, size, (t.members.getD []).map Record.member⟩, slot,
    UInt64.ofNat offset⟩

theorem describe_eq_ok_iff {type : TypeInfo} :
    t.describe label = .ok type ↔ ∃ size, t.size.value? = some size ∧
      type = ⟨t.label, t.encoding, size, (t.members.getD []).map Record.member⟩ := by
  rw [TypeDef.describe, bind_eq_ok_iff]
  refine exists_congr fun size => and_congr field_eq_ok_iff ?_
  exact ⟨fun h => (Except.ok.inj h).symm, fun h => h ▸ rfl⟩

/-- A record has a variable exactly when it resolves, and no number in it is cut off. -/
theorem item_eq_ok_iff :
    d.item r = .ok i ↔
      ∃ t slot offset size, d.Resolves r t slot offset size ∧ i = r.place t slot offset size := by
  unfold item
  constructor
  · intro h
    split at h
    · cases h
    · next t ht =>
      simp only [bind_eq_ok_iff] at h
      obtain ⟨type, htype, slot, hslot, offset, hoffset, _, hslotlt, _, hstart, _, hstop, _, hoff,
        hi⟩ := h
      obtain ⟨size, hsize, rfl⟩ := describe_eq_ok_iff.1 htype
      refine ⟨t, slot, offset, size, ⟨ht, hsize, field_eq_ok_iff.1 hslot, field_eq_ok_iff.1 hoffset,
        guardField_eq_ok_iff.1 hslotlt, guardField_eq_ok_iff.1 hoff, guardField_eq_ok_iff.1 hstop⟩,
        (Except.ok.inj hi).symm⟩
  · rintro ⟨t, slot, offset, size, h, rfl⟩
    have hstart : slot * Position.slotSize + offset < Position.limit :=
      Nat.lt_of_le_of_lt (Nat.le_add_right _ size) h.stop_lt
    rw [h.type_eq]
    simp only [bind_eq_ok_iff]
    exact ⟨_, describe_eq_ok_iff.2 ⟨size, h.size_eq, rfl⟩, slot, field_eq_ok_iff.2 h.slot_eq, offset,
      field_eq_ok_iff.2 h.offset_eq, (), guardField_eq_ok_iff.2 h.slot_lt, (),
      guardField_eq_ok_iff.2 hstart, (), guardField_eq_ok_iff.2 h.stop_lt, (),
      guardField_eq_ok_iff.2 h.offset_lt, rfl⟩

theorem layout_eq_ok_iff {l : Layout} :
    d.layout = .ok l ↔ ∃ is, d.items = .ok is ∧ Layout.ofItems is = l := by
  unfold layout
  cases d.items <;> simp [Except.map]

/-- Sorting keeps the variables of the records. -/
theorem mem_layout {l : Layout} (h : d.layout = .ok l) :
    i ∈ l ↔ ∃ r ∈ d.storage, d.item r = .ok i := by
  obtain ⟨is, his, rfl⟩ := layout_eq_ok_iff.1 h
  rw [Layout.ofItems, (sortByPosition_perm Item.start is).mem_iff]
  exact mem_of_mapM_ok his i

theorem sized_layout {l : Layout} (h : d.layout = .ok l) : l.Sized := by
  intro i hi
  obtain ⟨r, _, hr⟩ := (mem_layout h).1 hi
  obtain ⟨t, slot, offset, size, _, rfl⟩ := item_eq_ok_iff.1 hr
  rfl

/-- Variables that are already in the order of their bytes stay where they are. -/
theorem layout_of_items {l : Layout} (h : d.items = .ok l) (hl : l.WellFormed) :
    d.layout = .ok l := by
  refine layout_eq_ok_iff.2 ⟨l, h, ?_⟩
  refine List.mergeSort_of_pairwise (hl.2.imp_of_mem fun {a b} ha _ hab => ?_)
  have := hl.pos ha
  simpa using (by lia : a.start ≤ b.start)

end Document

end StorageUpgrade
