import Mathlib.Data.List.Basic
import StorageUpgrade.Comparison

/-!
# Data moved by whole slots

Every kind of data of a comparison can be moved up by a number of slots: its positions grow by the
size of that many slots and its slots by their number, and all else stays. What the comparison asks
of its data, such as order, overlap, width, identity and place within a slot, does not notice.
-/
namespace StorageUpgrade

open Overlay

variable {α β γ δ : Type} {k : Nat}

/-- The position `k` slots further up. -/
def Position.shift (k : Nat) (p : Position) : Position := p + Position.slotSize * k

namespace Position

variable {p q : Position}

@[simp] theorem shift_lt_shift : shift k p < shift k q ↔ p < q := Nat.add_lt_add_iff_right

@[simp] theorem shift_le_shift : shift k p ≤ shift k q ↔ p ≤ q := Nat.add_le_add_iff_right

@[simp] theorem shift_inj : shift k p = shift k q ↔ p = q := Nat.add_right_cancel_iff

@[simp] theorem shift_sub_shift : shift k p - shift k q = p - q := Nat.add_sub_add_right _ _ _

theorem shift_div_slotSize (k : Nat) (p : Position) : shift k p / slotSize = p / slotSize + k :=
  Nat.add_mul_div_left p k (by decide)

theorem shift_mod_slotSize (k : Nat) (p : Position) : shift k p % slotSize = p % slotSize :=
  Nat.add_mul_mod_self_left p slotSize k

end Position

def ByteRange.shift (k : Nat) (r : ByteRange) : ByteRange :=
  ⟨Position.shift k r.start, Position.shift k r.stop⟩

def Item.shift (k : Nat) (i : Item) : Item :=
  { i with
    start := Position.shift k i.start
    stop := Position.shift k i.stop
    slot := i.slot + k }

def Layout.shift (k : Nat) (l : Layout) : Layout := l.map (Item.shift k)

def Overlay.Part.shift (k : Nat) : Part → Part
  | item i => item (i.shift k)
  | dirty r => dirty (r.shift k)

def Overlay.Sweep.shift (k : Nat) (s : Sweep) : Sweep :=
  ⟨s.remaining.map (ByteRange.shift k), s.pending.map (Item.shift k)⟩

def Aligned.shift (k : Nat) (move : α → α) : Aligned α → Aligned α
  | entry a => entry (move a)
  | absent p => absent (Position.shift k p)

def Alignment.shift (k : Nat) (a : Alignment) : Alignment :=
  ⟨a.overlay.map (Aligned.shift k (Part.shift k)), a.old.map (Aligned.shift k (Item.shift k))⟩

def View.shift (k : Nat) (v : View) : View :=
  { v with
    slot := v.slot + k
    start := Position.shift k v.start
    stop := Position.shift k v.stop }

def Finding.shift (k : Nat) (f : Finding) : Finding :=
  { f with
    start := Position.shift k f.start
    old := f.old.map (View.shift k)
    new := f.new.map (View.shift k) }

/-- The findings move. The summary and its text have no positions. -/
def Comparison.shift (k : Nat) (c : Comparison) : Comparison :=
  { c with findings := c.findings.map (Finding.shift k) }

/-- An error that names a position moves with it. -/
def Error.shift (k : Nat) : Error → Error
  | unalignedPosition start => unalignedPosition (Position.shift k start)
  | e => e

/-- The moved result of a computation, be it a value or an error. -/
def shiftResult (k : Nat) (move : α → β) : Except Error α → Except Error β
  | .ok a => .ok (move a)
  | .error e => .error (e.shift k)

/-- Two steps move when each of them does. -/
theorem bind_shiftResult {move : α → β} {move' : γ → δ} {r : Except Error α}
    {f : α → Except Error γ} {g : β → Except Error δ}
    (h : ∀ a, g (move a) = shiftResult k move' (f a)) :
    (shiftResult k move r >>= g) = shiftResult k move' (r >>= f) := by
  cases r with
  | error e => rfl
  | ok a => exact h a

theorem mapM_shiftResult {move : α → β} {move' : γ → δ} {f : α → Except Error γ}
    {g : β → Except Error δ} (h : ∀ a, g (move a) = shiftResult k move' (f a)) (xs : List α) :
    (xs.map move).mapM g = shiftResult k (List.map move') (xs.mapM f) := by
  induction xs with
  | nil => rfl
  | cons x xs ih =>
    rw [List.map_cons, List.mapM_cons, List.mapM_cons, h, ih]
    refine bind_shiftResult fun y => ?_
    exact bind_shiftResult fun ys => rfl

namespace ByteRange

@[simp] theorem shift_start (k : Nat) (r : ByteRange) :
    (r.shift k).start = Position.shift k r.start := rfl

@[simp] theorem shift_stop (k : Nat) (r : ByteRange) :
    (r.shift k).stop = Position.shift k r.stop := rfl

@[simp] theorem width_shift (k : Nat) (r : ByteRange) : (r.shift k).width = r.width := by
  simp [width]

@[simp] theorem isEmpty_shift (k : Nat) (r : ByteRange) : (r.shift k).isEmpty = r.isEmpty := by
  simp [isEmpty]

@[simp] theorem overlaps_shift (k : Nat) (r q : ByteRange) :
    (r.shift k).overlaps (q.shift k) = r.overlaps q := by
  simp [overlaps]

end ByteRange

namespace Item

@[simp] theorem shift_start (k : Nat) (i : Item) :
    (i.shift k).start = Position.shift k i.start := rfl

@[simp] theorem shift_stop (k : Nat) (i : Item) : (i.shift k).stop = Position.shift k i.stop := rfl

@[simp] theorem range_shift (k : Nat) (i : Item) : (i.shift k).range = i.range.shift k := rfl

/-- The place of a variable has no part in its identity. -/
@[simp] theorem identical_shift {i j : Item} :
    (i.shift k).Identical (j.shift k) ↔ i.Identical j := Iff.rfl

theorem shift_injective (k : Nat) : Function.Injective (Item.shift k) := by
  intro i j h
  cases i
  cases j
  simp only [shift, mk.injEq, Position.shift_inj, Nat.add_right_cancel_iff] at h
  simp only [mk.injEq]
  exact h

end Item

namespace Layout

theorem shift_inj {l m : Layout} : l.shift k = m.shift k ↔ l = m :=
  (List.map_injective_iff.2 (Item.shift_injective k)).eq_iff

@[simp] theorem containsIdentical_shift (k : Nat) (l : Layout) (i : Item) :
    (l.shift k).containsIdentical (i.shift k) = l.containsIdentical i := by
  simp [containsIdentical, shift, List.any_map, Function.comp_def]

@[simp] theorem overlaps_shift (k : Nat) (l : Layout) (r : ByteRange) :
    (l.shift k).overlaps (r.shift k) = l.overlaps r := by
  simp [overlaps, shift, List.any_map, Function.comp_def]

end Layout

namespace Overlay

@[simp] theorem Part.range_shift (k : Nat) (p : Part) : (p.shift k).range = p.range.shift k := by
  cases p <;> rfl

@[simp] theorem Part.start_shift (k : Nat) (p : Part) :
    (p.shift k).start = Position.shift k p.start := by
  simp [start]

@[simp] theorem Part.isDirty_shift (k : Nat) (p : Part) : (p.shift k).isDirty = p.isDirty := by
  cases p <;> rfl

end Overlay

/-- The slot of a dirty run moves up, and its offset within the slot stays. -/
theorem View.ofDirty_shift (k : Nat) (r : ByteRange) :
    ofDirty (r.shift k) = (ofDirty r).shift k := by
  simp [ofDirty, shift, ByteRange.slot, ByteRange.offset, Position.shift_div_slotSize,
    Position.shift_mod_slotSize]

end StorageUpgrade
