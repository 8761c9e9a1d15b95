import StorageUpgrade.Document
import StorageUpgrade.Error
import StorageUpgrade.Layout

/-!
# The layout of a document

A variable at a slot and offset starts at byte `32 * slot + offset` and occupies as many bytes as
its type has. Resolving a document fails at the first variable whose type is missing or whose
numbers cannot be used.
-/
namespace StorageUpgrade

namespace Document

def field (label : String) (name : NumericField) (n : Numeral) : Except Error Position :=
  match n.value? with
  | some p => .ok p
  | none => .error (.invalidNumber label name n.spelling)

/-- A member without the contract it came from. -/
def Record.member (r : Record) : Member := ⟨r.label, r.typeKey, r.slot, r.offset⟩

/-- What a layout keeps of a type, for the variable with this label. -/
def TypeDef.describe (t : TypeDef) (label : String) : Except Error TypeInfo := do
  let size ← field label .size t.size
  return ⟨t.label, t.encoding, size, (t.members.getD []).map Record.member⟩

/-- A number kept if the condition holds. -/
def guardField (ok : Prop) [Decidable ok] (label : String) (name : NumericField) (n : Numeral) :
    Except Error Unit :=
  if ok then .ok () else .error (.invalidNumber label name n.spelling)

def item (d : Document) (r : Record) : Except Error Item :=
  match d.resolve r.typeKey with
  | none => .error (.missingType r.label r.typeKey)
  | some t => do
    let type ← t.describe r.label
    let slot ← field r.label .slot r.slot
    let offset ← field r.label .offset r.offset
    guardField (slot < Position.slotLimit) r.label .slot r.slot
    let start := slot * Position.slotSize + offset
    guardField (start < Position.limit) r.label .offset r.offset
    let stop := start + type.size
    guardField (stop < Position.limit) r.label .size t.size
    guardField (offset < UInt64.size) r.label .offset r.offset
    return ⟨r.label, start, stop, type, slot, UInt64.ofNat offset⟩

def items (d : Document) : Except Error (List Item) := d.storage.mapM d.item

def layout (d : Document) : Except Error Layout := d.items.map Layout.ofItems

end Document

end StorageUpgrade
