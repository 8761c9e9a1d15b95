import StorageUpgrade.LineDiff.Changes
import StorageUpgrade.Text.Blank

/-!
# Unified diffs

Edits that are close together form a hunk, which shows them between lines of context. A line
without a line feed at the end of a text is followed by a note, and the notes are removed from the
finished diff.
-/
namespace StorageUpgrade.LineDiff

/-- Lines from `oldLine` and `newLine` on replaced by each other. -/
structure Edit where
  oldLine : Nat
  deleted : Nat
  newLine : Nat
  inserted : Nat
  deriving DecidableEq

/-- The edits between two texts, from the flags of their changed lines. -/
def edits : Nat → Nat → Nat → List Bool → List Bool → List Edit
  | 0, _, _, _, _ => []
  | steps + 1, i, j, old, new =>
    let deleted := (old.takeWhile id).length
    let inserted := (new.takeWhile id).length
    let old := old.drop deleted
    let new := new.drop inserted
    let rest :=
      if old.isEmpty && new.isEmpty then []
      else edits steps (i + deleted + 1) (j + inserted + 1) (old.drop 1) (new.drop 1)
    if deleted = 0 ∧ inserted = 0 then rest else ⟨i, deleted, j, inserted⟩ :: rest

/-- Edits grouped into hunks: at most twice the context lies between two edits of a hunk. -/
def hunks (context : Nat) : List Edit → List (List Edit)
  | [] => []
  | e :: es =>
    match hunks context es with
    | [] => [[e]]
    | [] :: rest => [e] :: rest
    | (next :: edits) :: rest =>
      if next.oldLine ≤ e.oldLine + e.deleted + 2 * context then (e :: next :: edits) :: rest
      else [e] :: (next :: edits) :: rest

/-- A range of lines in the head of a hunk. A range without lines is told by the line before it. -/
def rangeText (first count : Nat) : String :=
  if count = 0 then toString first ++ ",0"
  else if count = 1 then toString (first + 1)
  else toString (first + 1) ++ "," ++ toString count

/-- The note after a line without a line feed. -/
def incompleteNote : List Char := "\\ No newline at end of file".toList

def lineText (mark : Char) (l : Line) : List Char :=
  mark :: l.text ++ ['\n'] ++ (if l.complete then [] else incompleteNote ++ ['\n'])

/-- Lines of a hunk from line `i` of the old text on, up to line `last`. -/
def hunkBody (old new : List Line) (last : Nat) : Nat → List Edit → List Char
  | i, [] => ((old.drop i).take (last - i)).flatMap (lineText ' ')
  | i, e :: es =>
    ((old.drop i).take (e.oldLine - i)).flatMap (lineText ' ') ++
      ((old.drop e.oldLine).take e.deleted).flatMap (lineText '-') ++
      ((new.drop e.newLine).take e.inserted).flatMap (lineText '+') ++
      hunkBody old new last (e.oldLine + e.deleted) es

def hunkText (context : Nat) (old new : List Line) (hunk : List Edit) : List Char :=
  match hunk, hunk.getLast? with
  | first :: _, some last =>
    let oldFirst := first.oldLine - context
    let newFirst := first.newLine - context
    let oldLast := Nat.min (last.oldLine + last.deleted + context) old.length
    let newLast := Nat.min (last.newLine + last.inserted + context) new.length
    ("@@ -" ++ rangeText oldFirst (oldLast - oldFirst) ++ " +" ++
      rangeText newFirst (newLast - newFirst) ++ " @@\n").toList ++
      hunkBody old new oldLast oldFirst hunk
  | _, _ => []

/-- Length of the line end at the front of a text, a lone carriage return included. -/
def endLength : List Char → Nat
  | '\r' :: '\n' :: _ => 2
  | '\r' :: _ | '\n' :: _ => 1
  | _ => 0

/-- Length of the note at the front of a text, with its line end, or zero. -/
def noteLength (cs : List Char) : Nat :=
  if incompleteNote.isPrefixOf cs then
    incompleteNote.length + endLength (cs.drop incompleteNote.length)
  else 0

/-- A text without the notes at the beginning of its lines: `skip` characters still belong to a
note, and `fresh` says that a line begins here. -/
def withoutNotes : Nat → Bool → List Char → List Char
  | _, _, [] => []
  | skip + 1, _, c :: cs => withoutNotes skip (c = '\n') cs
  | 0, fresh, c :: cs =>
    if fresh && 0 < noteLength (c :: cs) then
      withoutNotes (noteLength (c :: cs) - 1) (c = '\n') cs
    else c :: withoutNotes 0 (c = '\n') cs

/-- A diff without its notes on missing line feeds. -/
def clean (diff : String) : String := String.ofList (withoutNotes 0 true diff.toList)

/-- The hunks of the diff of two texts, from their lines. -/
def hunksOf (context : Nat) (old new : List Line) : List (List Edit) :=
  let aside := setAside context old new
  let (oldFlags, newFlags) := changes (middle aside old) (middle aside new)
  hunks context (edits (old.length + new.length + 1) aside.1 aside.1 oldFlags newFlags)

def hunksText (context : Nat) (old new : List Line) : List Char :=
  (hunksOf context old new).flatMap (hunkText context old new)

def head (oldLabel newLabel : String) : String :=
  "--- " ++ oldLabel ++ "\n+++ " ++ newLabel ++ "\n"

/-- Unified diff of two texts with the notes on missing line feeds. -/
def annotated (oldLabel newLabel : String) (context : Nat) (old new : String) : String :=
  head oldLabel newLabel ++
    String.ofList (hunksText context (linesOf old.toList) (linesOf new.toList))

/-- The text looks binary: a null character stands among its first bytes. -/
def looksBinary : Nat → List Char → Bool
  | _, [] => false
  | bytes, c :: cs => 0 < bytes && (c.toNat = 0 || looksBinary (bytes - c.utf8Size) cs)

def binaryProbe : Nat := 4096

/-- Unified diff of two texts with so many lines of context, without notes and trailing blanks.
Equal texts have an empty diff. -/
def unified (oldLabel newLabel : String) (context : Nat) (old new : String) : String :=
  if old = new then ""
  else if looksBinary binaryProbe old.toList || looksBinary binaryProbe new.toList then
    "Binary files " ++ oldLabel ++ " and " ++ newLabel ++ " differ"
  else
    String.ofList (Text.trimEnd (clean (annotated oldLabel newLabel context old new)).toList)

end StorageUpgrade.LineDiff
