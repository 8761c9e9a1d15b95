import StorageUpgrade.Layout

/-!
# Overlay of two layouts

The overlay is the new layout together with the old bytes that it no longer addresses. A sweep
walks both layouts from the left. It keeps what is left of each old variable as a range, emits each
new variable as it is met, and emits as dirty whatever it leaves behind of the old ranges.

One pass of the sweep looks at the first range and the first variable only. It drops one of the two
or moves the start of the range past the variable. A variable without a byte is not moved past, so
inside a range it keeps the sweep from ever ending, and then there is no overlay.
-/
namespace StorageUpgrade

/-- A part of the overlay: a new variable, or old bytes left without a variable. -/
inductive Overlay.Part where
  | item (i : Item)
  | dirty (r : ByteRange)
  deriving DecidableEq

namespace Overlay

def dirtyLabel : String := "@dirty"

namespace Part

def range : Part → ByteRange
  | item i => i.range
  | dirty r => r

def start (p : Part) : Position := p.range.start

def isDirty : Part → Bool
  | item _ => false
  | dirty _ => true

def label : Part → String
  | item i => i.label
  | dirty _ => dirtyLabel

end Part

/-- State of the sweep: what is left of the old variables, and the new variables to come. -/
structure Sweep where
  remaining : List ByteRange
  pending : List Item

/-- The sweep before its first pass. -/
def Sweep.ofLayouts (old new : List Item) : Sweep := ⟨old.map Item.range, new⟩

/-- Old ranges under a new variable that ends at `stop` and starts before the first of them. Those
that end with it are gone, and the next one loses the bytes below `stop`. -/
def supersede (stop : Position) : List ByteRange → List ByteRange
  | [] => []
  | r :: rs =>
    if r.stop ≤ stop then supersede stop rs
    else if r.start < stop then ⟨stop, r.stop⟩ :: rs
    else r :: rs

/-- One pass: the parts emitted and the state after it. Nothing is left to do when both lists are
empty. -/
def Sweep.pass : Sweep → Option (List Part × Sweep)
  | ⟨[], []⟩ => none
  | ⟨[], n :: ns⟩ => some ([.item n], ⟨[], ns⟩)
  | ⟨r :: rs, []⟩ => some ([.dirty r], ⟨rs, []⟩)
  | ⟨r :: rs, n :: ns⟩ =>
    if n.start < r.start then some ([.item n], ⟨supersede n.stop (r :: rs), ns⟩)
    else if r.stop ≤ n.start then some ([.dirty r], ⟨rs, n :: ns⟩)
    else
      let left := if r.start < n.start then [.dirty ⟨r.start, n.start⟩] else []
      if n.stop < r.stop then some (left, ⟨⟨n.stop, r.stop⟩ :: rs, n :: ns⟩)
      else some (left, ⟨rs, n :: ns⟩)

/-- All parts emitted until nothing is left to do, behind those emitted before. There is no result
when the sweep never comes to an end. -/
def Sweep.run (emitted : List Part) (s : Sweep) : Option (List Part) :=
  match s.pass with
  | none => some emitted
  | some (parts, next) => next |>.run (emitted ++ parts)
partial_fixpoint

end Overlay

/-- Overlay of two layouts, without the parts that hold no byte. There is none when the sweep over
the layouts never comes to an end. -/
def overlay (old new : List Item) : Option (List Overlay.Part) :=
  ((Overlay.Sweep.ofLayouts old new).run []).map (List.filter fun p => !p.range.isEmpty)

/-- Number of dirty bytes among the parts, held at the last position. -/
def dirtyByteCount (parts : List Overlay.Part) : Position :=
  (parts.filter Overlay.Part.isDirty).foldl
    (fun total p => Position.addCapped total p.range.width) 0

end StorageUpgrade
