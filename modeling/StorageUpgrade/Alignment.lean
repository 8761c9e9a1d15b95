import StorageUpgrade.Error
import StorageUpgrade.Overlay

/-!
# Alignment

Two sequences are aligned when they have the same length and their entries at each index start at
the same byte. Each side receives a placeholder for every start that only the other one has.
-/
namespace StorageUpgrade

/-- An entry of an aligned sequence, or the placeholder for a missing one. -/
inductive Aligned (α : Type) where
  | entry (a : α)
  | absent (start : Position)
  deriving DecidableEq

namespace Aligned

def start (key : α → Position) : Aligned α → Position
  | entry a => key a
  | absent p => p

def entry? : Aligned α → Option α
  | entry a => some a
  | absent _ => none

end Aligned

/-- The starts of `reference` that are not in `present`, each of them once. -/
def missingStarts (present : List Position) : List Position → List Position
  | [] => []
  | p :: ps =>
    if p ∈ present then missingStarts present ps else p :: missingStarts (p :: present) ps

/-- One placeholder added for each missing start of `reference`, in the order of starts. -/
def padStarts (key : α → Position) (base : List (Aligned α)) (reference : List Position) :
    List (Aligned α) :=
  let missing := missingStarts (base.map (Aligned.start key)) reference
  sortByPosition (Aligned.start key) (base ++ missing.map .absent)

/-- Two sequences of one length whose entries belong together by index. -/
structure Alignment where
  overlay : List (Aligned Overlay.Part)
  old : List (Aligned Item)

namespace Alignment

def rows (a : Alignment) : List (Aligned Overlay.Part × Aligned Item) := a.overlay.zip a.old

end Alignment

/-- Alignment of an overlay with the old layout. The overlay receives the old starts first, then
the old side the starts of the padded overlay. Only a start that is repeated on one side more often
than on the other leaves the lengths apart. -/
def align (parts : List Overlay.Part) (old : List Item) : Except Error Alignment :=
  let overlay := padStarts Overlay.Part.start (parts.map .entry) (old.map Item.start)
  let old := padStarts Item.start (old.map .entry) (overlay.map (Aligned.start Overlay.Part.start))
  if overlay.length = old.length then .ok ⟨overlay, old⟩
  else .error (.alignmentMismatch overlay.length old.length)

end StorageUpgrade
