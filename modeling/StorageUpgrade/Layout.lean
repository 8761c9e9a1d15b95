import StorageUpgrade.ByteRange
import StorageUpgrade.Numeral

/-!
# Layouts

A layout is a sequence of variables, each bound to a range of bytes. Two variables are identical
when they agree on everything but their place: label, type label, size and encoding.
-/
namespace StorageUpgrade

/-- A member of a struct type, without the contract that it came from. -/
structure Member where
  label : String
  typeKey : String
  slot : Numeral
  offset : Numeral
  deriving DecidableEq

/-- What a layout keeps about the type of a variable. -/
structure TypeInfo where
  label : String
  encoding : String
  size : Position
  members : List Member
  deriving DecidableEq

/-- A variable and the bytes it occupies. -/
structure Item where
  label : String
  start : Position
  stop : Position
  type : TypeInfo
  slot : Position
  offset : UInt64
  deriving DecidableEq

namespace Item

def range (i : Item) : ByteRange := ⟨i.start, i.stop⟩

@[simp] theorem range_start (i : Item) : i.range.start = i.start := rfl

@[simp] theorem range_stop (i : Item) : i.range.stop = i.stop := rfl

/-- Same variable, wherever it sits. -/
def Identical (a b : Item) : Prop :=
  a.label = b.label ∧ a.type.label = b.type.label ∧ a.type.size = b.type.size ∧
    a.type.encoding = b.type.encoding

instance (a b : Item) : Decidable (a.Identical b) := inferInstanceAs (Decidable (_ ∧ _))

theorem Identical.refl (a : Item) : a.Identical a := ⟨rfl, rfl, rfl, rfl⟩

theorem Identical.symm {a b : Item} (h : a.Identical b) : b.Identical a :=
  ⟨h.1.symm, h.2.1.symm, h.2.2.1.symm, h.2.2.2.symm⟩

theorem Identical.trans {a b c : Item} (h : a.Identical b) (k : b.Identical c) : a.Identical c :=
  ⟨h.1.trans k.1, h.2.1.trans k.2.1, h.2.2.1.trans k.2.2.1, h.2.2.2.trans k.2.2.2⟩

end Item

/-- Stable ascending order by a position. -/
def sortByPosition (key : α → Position) (xs : List α) : List α :=
  xs.mergeSort fun a b => key a ≤ key b

/-- Variables in the order of their first bytes. -/
abbrev Layout := List Item

namespace Layout

/-- The layout with these variables. Variables that start together keep their order. -/
def ofItems (items : List Item) : Layout := sortByPosition Item.start items

def containsIdentical (l : Layout) (i : Item) : Bool := l.any fun o => o.Identical i

def overlaps (l : Layout) (r : ByteRange) : Bool := l.any fun o => o.range.overlaps r

/-- Every variable occupies a byte and ends before the next one starts. -/
def WellFormed (l : Layout) : Prop :=
  (∀ i ∈ l, i.start < i.stop) ∧ l.Pairwise fun a b => a.stop ≤ b.start

end Layout

end StorageUpgrade
