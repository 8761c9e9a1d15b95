import StorageUpgrade.Proofs.Safety

/-!
# The order of the records

The records of a document may be listed in any order. Whether they resolve does not depend on it,
though another record may be the first to fail. The layouts have the same variables and the same
starts in turn, and when no two variables start together they are the same layout.
-/
namespace StorageUpgrade

namespace Document

/-- The documents have the same records, in any order, and the same types. -/
structure SameRecords (d e : Document) : Prop where
  storage : d.storage.Perm e.storage
  types : d.types = e.types

/-- The byte at which the variable of the record starts. -/
def Record.start? (r : Record) : Option Position := do
  let slot ← r.slot.value?
  let offset ← r.offset.value?
  return slot * Position.slotSize + offset

variable {d e : Document} {r : Record} {i : Item} {l : Layout}

theorem SameRecords.symm (h : d.SameRecords e) : e.SameRecords d :=
  ⟨h.storage.symm, h.types.symm⟩

theorem start?_of_item (h : d.item r = .ok i) : r.start? = some i.start := by
  obtain ⟨t, slot, offset, size, hres, rfl⟩ := item_eq_ok_iff.1 h
  simp [Record.start?, hres.slot_eq, hres.offset_eq, Record.place]

/-- Records that start apart have variables that start apart. -/
theorem nodup_starts_of_items {is : List Item} (h : d.items = .ok is)
    (hstarts : (d.storage.map Record.start?).Nodup) : (is.map Item.start).Nodup := by
  have hmap : is.map (fun i => some i.start) = d.storage.map Record.start? :=
    map_eq_of_mapM_ok h fun r _ i hi => (start?_of_item hi).symm
  rw [← hmap, ← Function.comp_def some, ← List.map_map] at hstarts
  exact hstarts.of_map some

namespace SameRecords

/-- A record resolves alike in both documents. -/
theorem item_eq (h : d.SameRecords e) (r : Record) : d.item r = e.item r := by
  have hresolve : d.resolve r.typeKey = e.resolve r.typeKey := by
    unfold resolve
    rw [h.types]
  unfold item
  rw [hresolve]

/-- The second document has the variables of the first one, in its own order. -/
theorem exists_items (h : d.SameRecords e) {is : List Item} (hd : d.items = .ok is) :
    ∃ js, e.items = .ok js ∧ is.Perm js := by
  have hitem : d.item = e.item := funext h.item_eq
  rw [items, hitem] at hd
  exact exists_mapM_ok_of_perm h.storage hd

theorem exists_layout (h : d.SameRecords e) (hd : d.layout = .ok l) :
    ∃ m, e.layout = .ok m ∧ l.Perm m ∧ l.map Item.start = m.map Item.start ∧
      ((d.storage.map Record.start?).Nodup →
        m = l ∧ l.Pairwise fun i j => i.start < j.start) := by
  obtain ⟨is, his, rfl⟩ := layout_eq_ok_iff.1 hd
  obtain ⟨js, hjs, hperm⟩ := h.exists_items his
  refine ⟨_, layout_eq_ok_iff.2 ⟨js, hjs, rfl⟩, ?_, ?_, fun hstarts => ⟨?_, ?_⟩⟩
  · have hsorted := sortByPosition_perm Item.start is
    exact hsorted.trans (hperm.trans (sortByPosition_perm Item.start js).symm)
  · exact map_sortByPosition_of_perm hperm
  · exact (sortByPosition_eq_of_perm hperm (nodup_starts_of_items his hstarts)).symm
  · exact sortByPosition_ascending (nodup_starts_of_items his hstarts)

end SameRecords

/-- The order of the records decides neither whether a document has a layout nor which variables
are in it, and it can only change the order of variables that start together. When no two records
start together, the documents have one layout and stand for each other in every comparison. -/
theorem layout_of_sameRecords (h : d.SameRecords e) :
    ((∃ l, d.layout = .ok l) ↔ ∃ m, e.layout = .ok m) ∧
      ∀ l, d.layout = .ok l →
        ∃ m, e.layout = .ok m ∧ l.Perm m ∧ l.map Item.start = m.map Item.start ∧
          ((d.storage.map Record.start?).Nodup →
            m = l ∧ (l.Pairwise fun i j => i.start < j.start) ∧
              ∀ x, compareDocuments d x = compareDocuments e x ∧
                compareDocuments x d = compareDocuments x e) := by
  refine ⟨⟨?_, ?_⟩, fun l hd => ?_⟩
  · rintro ⟨l, hd⟩
    obtain ⟨m, he, _⟩ := h.exists_layout hd
    exact ⟨m, he⟩
  · rintro ⟨m, he⟩
    obtain ⟨l, hd, _⟩ := h.symm.exists_layout he
    exact ⟨l, hd⟩
  · obtain ⟨m, he, hperm, hstarts, hsame⟩ := h.exists_layout hd
    refine ⟨m, he, hperm, hstarts, fun hnodup => ?_⟩
    obtain ⟨rfl, hasc⟩ := hsame hnodup
    refine ⟨rfl, hasc, fun x => ⟨?_, ?_⟩⟩
    · simp only [compareDocuments, hd, he]
    · simp only [compareDocuments, hd, he]

/-- The records of the document from the last to the first. -/
def reversed (d : Document) : Document := { d with storage := d.storage.reverse }

theorem sameRecords_reversed (d : Document) : d.SameRecords d.reversed :=
  ⟨(List.reverse_perm d.storage).symm, rfl⟩

theorem layout_of_sameRecords_reversed :
    ∃ l, (Document.ofWords ["total", "cap"]).layout = .ok l ∧
      (Document.ofWords ["total", "cap"]).reversed.layout = .ok l ∧
      l.map Item.label = ["total", "cap"] := by
  have hd : (Document.ofWords ["total", "cap"]).layout =
      .ok [.inplace "total" "uint256" 0 32, .inplace "cap" "uint256" 32 32] :=
    Document.layout_of_items (by decide +kernel) (by decide)
  obtain ⟨m, he, _, _, hsame⟩ := (layout_of_sameRecords (sameRecords_reversed _)).2 _ hd
  obtain ⟨rfl, _⟩ := hsame (by decide +kernel)
  exact ⟨_, hd, he, rfl⟩

end Document

end StorageUpgrade
