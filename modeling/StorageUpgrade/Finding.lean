import StorageUpgrade.Alignment
import StorageUpgrade.Classification

/-!
# Findings

Each aligned pair is classified and becomes a finding: the outcome together with what stood at the
byte before the upgrade and what stands there after it.
-/
namespace StorageUpgrade

/-- One side of a finding. -/
structure View where
  label : String
  typeLabel : String
  slot : Position
  offset : UInt64
  start : Position
  stop : Position
  deriving DecidableEq

namespace View

def ofItem (i : Item) : View := ⟨i.label, i.type.label, i.slot, i.offset, i.start, i.stop⟩

/-- View of a run of dirty bytes. Slot and offset follow from its first byte. -/
def ofDirty (r : ByteRange) : View :=
  ⟨Overlay.dirtyLabel, "", r.slot, r.offset, r.start, r.stop⟩

def isDirty (v : View) : Bool := v.label = Overlay.dirtyLabel

def width (v : View) : Position := v.stop - v.start

end View

/-- The outcome for one start byte, with the old variable that starts there and what the new layout
has there. -/
structure Finding where
  classification : Classification
  start : Position
  old : Option View
  new : Option View
  deriving DecidableEq

namespace Finding

/-- The view that the finding is mainly about: the new one when there is one. -/
def primary (f : Finding) : Option View := f.new <|> f.old

def label (f : Finding) : String := (f.primary.map View.label).getD ""

def typeLabel (f : Finding) : String := (f.primary.map View.typeLabel).getD ""

def slot (f : Finding) : Position := (f.primary.map View.slot).getD 0

def offset (f : Finding) : UInt64 := (f.primary.map View.offset).getD 0

def dirtyBytes (f : Finding) : Option Position :=
  match f.classification, f.new with
  | .dirtyByteRun, some v => some v.width
  | _, _ => none

end Finding

namespace Classification

/-- Outcome for a new variable at the start of an old one. -/
def ofReplacement (new old : Item) (layout : Layout) : Classification :=
  if new.Identical old then unchanged
  else if layout.containsIdentical new then movedAndProblematic
  else problematic

/-- Outcome for a new variable where no old one starts. -/
def ofFresh (new : Item) (layout : Layout) : Classification :=
  match layout.overlaps new.range, layout.containsIdentical new with
  | true, true => movedAndProblematic
  | true, false => problematic
  | false, true => moved
  | false, false => .new

end Classification

/-- Finding for one aligned pair. The old layout answers whether an identical variable exists and
whether bytes were in use. -/
def findingOfRow (layout : Layout) :
    Aligned Overlay.Part × Aligned Item → Except Error Finding
  | (.entry (.dirty r), .entry old) =>
    .ok ⟨.removed, r.start, some (.ofItem old), none⟩
  | (.entry (.item new), .entry old) =>
    .ok ⟨.ofReplacement new old layout, new.start, some (.ofItem old), some (.ofItem new)⟩
  | (.entry (.dirty r), .absent _) =>
    .ok ⟨.dirtyByteRun, r.start, none, some (.ofDirty r)⟩
  | (.entry (.item new), .absent _) =>
    .ok ⟨.ofFresh new layout, new.start, none, some (.ofItem new)⟩
  | (.absent start, .entry old) => .ok ⟨.removed, start, some (.ofItem old), none⟩
  | (.absent start, .absent _) => .error (.unalignedPosition start)

def classify (a : Alignment) (layout : Layout) : Except Error (List Finding) :=
  if a.overlay.length = a.old.length then a.rows.mapM (findingOfRow layout)
  else .error (.alignmentMismatch a.overlay.length a.old.length)

end StorageUpgrade
