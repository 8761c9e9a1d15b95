import StorageUpgrade.Position

/-!
# Byte ranges

Half-open intervals of positions. A range whose end is not above its start holds no byte.
-/
namespace StorageUpgrade

/-- The bytes from `start` up to, but not including, `stop`. -/
structure ByteRange where
  start : Position
  stop : Position
  deriving DecidableEq

namespace ByteRange

def Covers (r : ByteRange) (p : Position) : Prop := r.start ≤ p ∧ p < r.stop

instance (r : ByteRange) (p : Position) : Decidable (r.Covers p) :=
  inferInstanceAs (Decidable (_ ∧ _))

def width (r : ByteRange) : Position := r.stop - r.start

def isEmpty (r : ByteRange) : Bool := r.stop ≤ r.start

/-- Each range starts before the other one ends. -/
def overlaps (a b : ByteRange) : Bool := a.start < b.stop && b.start < a.stop

def slot (r : ByteRange) : Position := r.start / Position.slotSize

/-- Place of the first byte within its slot. -/
def offset (r : ByteRange) : UInt64 := UInt64.ofNat (r.start % Position.slotSize)

@[simp] theorem isEmpty_eq_false_iff {r : ByteRange} : r.isEmpty = false ↔ r.start < r.stop := by
  simp [isEmpty]

end ByteRange

end StorageUpgrade
