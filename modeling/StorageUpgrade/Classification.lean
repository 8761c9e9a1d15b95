/-!
# Classifications

The outcome for one start byte of the aligned layouts. Dirty bytes at an old start make the old
variable *removed*, and dirty bytes anywhere else are a *dirty byte run*.
-/
namespace StorageUpgrade

/-- Outcome for one start byte. -/
inductive Classification where
  | unchanged
  | moved
  | new
  | removed
  | problematic
  | movedAndProblematic
  | dirtyByteRun
  deriving DecidableEq

namespace Classification

/-- The outcomes in the order in which counts are listed. -/
def all : List Classification :=
  [unchanged, moved, new, removed, problematic, movedAndProblematic, dirtyByteRun]

/-- Name in documents and tables. -/
def name : Classification → String
  | unchanged => "unchanged"
  | moved => "moved"
  | new => "new"
  | removed => "removed"
  | problematic => "problematic"
  | movedAndProblematic => "moved_and_problematic"
  | dirtyByteRun => "dirty_byte_run"

/-- Name in running text. -/
def phrase : Classification → String
  | movedAndProblematic => "moved and problematic"
  | dirtyByteRun => "dirty byte run"
  | c => c.name

def ofName? (s : String) : Option Classification := all.find? fun c => c.name = s

/-- Mark in front of a line that carries no finding. -/
def blankMarker : String := "  "

/-- Mark in front of the line of the new layout. -/
def marker : Classification → String
  | problematic => "🏴"
  | moved => "🏳️"
  | movedAndProblematic => "🏁"
  | removed => "🪦"
  | new => "🌱"
  | unchanged | dirtyByteRun => blankMarker

/-- The outcome is a hazard for an upgrade in place. -/
def isUnsafe : Classification → Bool
  | problematic | moved | movedAndProblematic | removed => true
  | unchanged | new | dirtyByteRun => false

theorem mem_all (c : Classification) : c ∈ all := by cases c <;> decide

end Classification

end StorageUpgrade
