import StorageUpgrade.Finding
import StorageUpgrade.Text.Lines

/-!
# Text views of a comparison

A comparison is shown as two texts, one for each layout, with a line for every finding on both
sides, so that a plain line diff of the two brings out what changed.
-/
namespace StorageUpgrade

structure Views where
  old : String
  new : String
  deriving DecidableEq

namespace Views

def labelWidth : Nat := 25

def slotWidth : Nat := 8

def offsetWidth : Nat := 5

/-- Slot and offset. An offset of zero is left out and the slot padded instead. -/
def placeText (slot : Position) (offset : UInt64) : String :=
  if offset = 0 then Text.padRight slotWidth (toString slot)
  else toString slot ++ ": " ++ Text.padRight offsetWidth (toString offset.toNat)

def line (marker : String) (slot : Position) (offset : UInt64) (label typeLabel : String) :
    String :=
  marker ++ "  " ++ placeText slot offset ++ "   " ++ Text.padRight labelWidth label ++ "    " ++
    typeLabel

def itemLine (marker : String) (v : View) : String :=
  line marker v.slot v.offset v.label v.typeLabel

def dirtyLine (v : View) : String :=
  line Classification.blankMarker v.slot v.offset
    (toString v.width ++ " dirty byte" ++ Text.plural v.width) ""

/-- Line of a finding in the old view, empty when no old variable starts there. -/
def oldLine (f : Finding) : String :=
  match f.old with
  | none => ""
  | some v => itemLine Classification.blankMarker v

/-- Line of a finding in the new view. A removed variable leaves only its mark. -/
def newLine (f : Finding) : String :=
  match f.classification, f.new with
  | .dirtyByteRun, some v => dirtyLine v
  | .removed, _ => f.classification.marker
  | _, none => f.classification.marker
  | _, some v => itemLine f.classification.marker v

def ofFindings (fs : List Finding) : Views :=
  ⟨Text.join "\n" (fs.map oldLine), Text.join "\n" (fs.map newLine)⟩

def isEmpty (v : Views) : Bool := v.old.isEmpty && v.new.isEmpty

end Views

end StorageUpgrade
