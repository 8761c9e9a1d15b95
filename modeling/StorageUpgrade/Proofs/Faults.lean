import StorageUpgrade.Proofs.Resolution

/-!
# What stops a document

A record has to meet eight requirements, which are looked at in a fixed order. Three limits are
among them: one for slots, one for offsets and one for positions, and an offset can break two of
them. The error of a document is that of the first requirement that is not met by the first record
that does not meet them all. Without such a record the layout has one variable for each record, with
exact numbers.
-/
namespace StorageUpgrade

namespace Document

/-- What a record has to meet. -/
inductive Requirement where
  | typeKnown
  | sizeRead
  | slotRead
  | offsetRead
  | slotFits
  | startFits
  | stopFits
  | offsetFits

/-- The requirements in the order in which they are looked at. -/
def Requirement.all : List Requirement :=
  [.typeKnown, .sizeRead, .slotRead, .offsetRead, .slotFits, .startFits, .stopFits, .offsetFits]

/-- The error for a field of the record. -/
def Record.fault (r : Record) (name : NumericField) (n : Numeral) : Error :=
  .invalidNumber r.label name n.spelling

/-- The record does not meet the requirement, and the error tells which field is at fault. -/
def Breaks (d : Document) (r : Record) : Requirement → Error → Prop
  | .typeKnown, e => d.resolve r.typeKey = none ∧ e = .missingType r.label r.typeKey
  | .sizeRead, e => ∃ t, d.resolve r.typeKey = some t ∧ t.size.value? = none ∧
      e = r.fault .size t.size
  | .slotRead, e => r.slot.value? = none ∧ e = r.fault .slot r.slot
  | .offsetRead, e => r.offset.value? = none ∧ e = r.fault .offset r.offset
  | .slotFits, e => ∃ slot, r.slot.value? = some slot ∧ Position.slotLimit ≤ slot ∧
      e = r.fault .slot r.slot
  | .startFits, e => ∃ slot offset, r.slot.value? = some slot ∧ r.offset.value? = some offset ∧
      Position.limit ≤ slot * Position.slotSize + offset ∧ e = r.fault .offset r.offset
  | .stopFits, e => ∃ t slot offset size, d.resolve r.typeKey = some t ∧
      r.slot.value? = some slot ∧ r.offset.value? = some offset ∧ t.size.value? = some size ∧
      Position.limit ≤ slot * Position.slotSize + offset + size ∧ e = r.fault .size t.size
  | .offsetFits, e => ∃ offset, r.offset.value? = some offset ∧ UInt64.size ≤ offset ∧
      e = r.fault .offset r.offset

variable {d : Document} {r : Record} {t : TypeDef} {i : Item} {e : Error}
variable {label : String} {name : NumericField} {n : Numeral}

theorem field_eq_error_iff :
    field label name n = .error e ↔ n.value? = none ∧ e = .invalidNumber label name n.spelling := by
  unfold field
  cases n.value? <;> simp [eq_comm]

theorem guardField_eq_error_iff {ok : Prop} [Decidable ok] :
    guardField ok label name n = .error e ↔
      ¬ ok ∧ e = .invalidNumber label name n.spelling := by
  unfold guardField
  split_ifs with h <;> simp [h, eq_comm]

theorem describe_eq_error_iff (ht : d.resolve r.typeKey = some t) :
    t.describe r.label = .error e ↔ d.Breaks r .sizeRead e := by
  have hsize : d.Breaks r .sizeRead e ↔ t.size.value? = none ∧ e = r.fault .size t.size := by
    simp [Breaks, ht]
  rw [TypeDef.describe, bind_eq_error_iff, field_eq_error_iff, hsize, or_iff_left]
  · rfl
  · rintro ⟨size, _, h⟩
    cases h

/-- A record has no variable when it breaks a requirement, and the first one gives the error. -/
theorem item_eq_error_iff : d.item r = .error e ↔ First (d.Breaks r) Requirement.all e := by
  unfold item Requirement.all
  cases ht : d.resolve r.typeKey with
  | none =>
    have hunknown : d.Breaks r .typeKnown (.missingType r.label r.typeKey) := ⟨ht, rfl⟩
    rw [first_cons_iff, or_iff_left fun h => h.1 _ hunknown, Breaks]
    simp [ht, eq_comm]
  | some t =>
    have hknown : ∀ e, ¬ d.Breaks r .typeKnown e := by simp [Breaks, ht]
    rw [first_cons_iff, or_iff_right (hknown e), and_iff_right hknown]
    -- One step of the resolution for each requirement, the numbers that it reads being known.
    refine bind_eq_error_iff_first (fun e => describe_eq_error_iff ht) fun type htype => ?_
    obtain ⟨size, hsize, rfl⟩ := describe_eq_ok_iff.1 htype
    refine bind_eq_error_iff_first (fun e => field_eq_error_iff) fun slot hslot => ?_
    refine bind_eq_error_iff_first (fun e => field_eq_error_iff) fun offset hoffset => ?_
    rw [field_eq_ok_iff] at hslot hoffset
    refine bind_eq_error_iff_first (fun e => ?_) fun _ _ => ?_
    · simp [guardField_eq_error_iff, Breaks, Record.fault, hslot]
    refine bind_eq_error_iff_first (fun e => ?_) fun _ _ => ?_
    · simp [guardField_eq_error_iff, Breaks, Record.fault, hslot, hoffset]
    refine bind_eq_error_iff_first (fun e => ?_) fun _ _ => ?_
    · simp [guardField_eq_error_iff, Breaks, Record.fault, ht, hslot, hoffset, hsize]
    refine bind_eq_error_iff_first (fun e => ?_) fun _ _ => ?_
    · simp [guardField_eq_error_iff, Breaks, Record.fault, hoffset]
    constructor
    · intro h
      cases h
    · intro h
      exact absurd h not_first_nil

theorem layout_eq_error_iff : d.layout = .error e ↔ d.items = .error e := by
  unfold layout
  cases d.items <;> simp [Except.map]

/-- The variable of a record has the numbers of the record, and none of them is cut off. -/
def HasVariable (d : Document) (r : Record) (i : Item) : Prop :=
  ∃ t slot offset size, d.Resolves r t slot offset size ∧ i = r.place t slot offset size ∧
    i.offset.toNat = offset

theorem item_eq_ok_iff_hasVariable : d.item r = .ok i ↔ d.HasVariable r i := by
  rw [item_eq_ok_iff]
  constructor
  · rintro ⟨t, slot, offset, size, h, rfl⟩
    exact ⟨t, slot, offset, size, h, rfl, UInt64.toNat_ofNat_of_lt' h.offset_lt⟩
  · rintro ⟨t, slot, offset, size, h, hi, _⟩
    exact ⟨t, slot, offset, size, h, hi⟩

/-- A document has a layout when all of its records resolve. The layout is the stable sort of one
variable for each record, with exact numbers. Otherwise the first requirement that is not met by the
first record that breaks one gives the error. -/
theorem layout_exact (d : Document) :
    ((∃ l, d.layout = .ok l) ↔
        ∀ r ∈ d.storage, ∃ t slot offset size, d.Resolves r t slot offset size) ∧
      (∀ l, d.layout = .ok l ↔
        ∃ is, List.Forall₂ d.HasVariable d.storage is ∧ StableSort Item.start is l) ∧
      ∀ e, d.layout = .error e ↔
        First (fun r => First (d.Breaks r) Requirement.all) d.storage e := by
  refine ⟨?_, fun l => ?_, fun e => ?_⟩
  · constructor
    · rintro ⟨l, hl⟩ r hr
      obtain ⟨is, his, _⟩ := layout_eq_ok_iff.1 hl
      obtain ⟨i, hi⟩ := exists_ok_of_mem his hr
      obtain ⟨t, slot, offset, size, h, _⟩ := item_eq_ok_iff.1 hi
      exact ⟨t, slot, offset, size, h⟩
    · intro h
      obtain ⟨is, his⟩ : ∃ is, d.items = .ok is := by
        apply exists_mapM_ok
        intro r hr
        obtain ⟨t, slot, offset, size, hres⟩ := h r hr
        exact ⟨_, item_eq_ok_iff.2 ⟨t, slot, offset, size, hres, rfl⟩⟩
      exact ⟨_, layout_eq_ok_iff.2 ⟨is, his, rfl⟩⟩
  · rw [layout_eq_ok_iff]
    refine exists_congr fun is => and_congr ?_ ?_
    · simp only [items, mapM_eq_ok_iff, item_eq_ok_iff_hasVariable]
    · rw [stableSort_iff, Layout.ofItems, eq_comm]
  · simp only [layout_eq_error_iff, items, mapM_eq_error_iff, item_eq_error_iff]

/-- The variable would end long before the last position, so the limit of offsets is the one that
its offset breaks. -/
example : (Document.mk [⟨none, none, "far", .text "0x10000000000000000", .word 0, "word"⟩]
      (some ⟨[("word", ⟨"inplace", "uint256", .text "32", none⟩)], by simp⟩)).layout =
    .error (.invalidNumber "far" .offset "0x10000000000000000") := by decide +kernel

end Document

end StorageUpgrade
