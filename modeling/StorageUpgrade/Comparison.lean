import StorageUpgrade.Finding
import StorageUpgrade.Layout.Document
import StorageUpgrade.Text.Lines

/-!
# Comparison of two layouts

Equal layouts need no work and give no finding. Otherwise the overlay of the two is aligned with
the old layout and classified, and the findings are counted.
-/
namespace StorageUpgrade

/-- Findings counted by outcome. The counters are 32-bit words. -/
structure Summary where
  unchanged : UInt32 := 0
  moved : UInt32 := 0
  new : UInt32 := 0
  removed : UInt32 := 0
  problematic : UInt32 := 0
  movedAndProblematic : UInt32 := 0
  dirtyByteRuns : UInt32 := 0
  /-- All bytes left dirty, wherever they sit. -/
  dirtyBytes : Position := 0
  /-- Findings whose outcome is a hazard. -/
  unsafeFindings : UInt32 := 0
  deriving DecidableEq

namespace Summary

def bump (s : Summary) : Classification → Summary
  | .unchanged => { s with unchanged := s.unchanged + 1 }
  | .moved => { s with moved := s.moved + 1 }
  | .new => { s with new := s.new + 1 }
  | .removed => { s with removed := s.removed + 1 }
  | .problematic => { s with problematic := s.problematic + 1 }
  | .movedAndProblematic => { s with movedAndProblematic := s.movedAndProblematic + 1 }
  | .dirtyByteRun => { s with dirtyByteRuns := s.dirtyByteRuns + 1 }

/-- One more finding with this outcome. -/
def record (s : Summary) (c : Classification) : Summary :=
  let s := s.bump c
  if c.isUnsafe then { s with unsafeFindings := s.unsafeFindings + 1 } else s

def count (s : Summary) : Classification → UInt32
  | .unchanged => s.unchanged
  | .moved => s.moved
  | .new => s.new
  | .removed => s.removed
  | .problematic => s.problematic
  | .movedAndProblematic => s.movedAndProblematic
  | .dirtyByteRun => s.dirtyByteRuns

/-- The counter of an outcome in words, unless it is zero. -/
def phrase? (s : Summary) (c : Classification) : Option String :=
  if s.count c = 0 then none else some (toString (s.count c).toNat ++ " " ++ c.phrase)

def dirtyPhrase (s : Summary) : String :=
  if s.dirtyBytes = 0 then ""
  else "; " ++ toString s.dirtyBytes ++ " dirty byte" ++ Text.plural s.dirtyBytes

/-- Summary in one line: every outcome that occurs, *unchanged* apart, and the dirty bytes. -/
def text (s : Summary) : String :=
  match (Classification.all.filter (· ≠ .unchanged)).filterMap s.phrase? with
  | [] => "No changes"
  | parts => Text.join ", " parts ++ s.dirtyPhrase

end Summary

/-- Result of a comparison. There is no finding when the layouts are equal. -/
structure Comparison where
  findings : List Finding := []
  summary : Summary := {}
  summaryText : String := ""
  deriving DecidableEq

namespace Comparison

def add (c : Comparison) (f : Finding) : Comparison :=
  { c with findings := c.findings ++ [f], summary := c.summary.record f.classification }

def finish (c : Comparison) : Comparison := { c with summaryText := c.summary.text }

def isChanged (c : Comparison) : Bool := !c.findings.isEmpty

def hasUnsafeFindings (c : Comparison) : Bool := c.summary.unsafeFindings != 0

def filter (c : Comparison) (k : Classification) : List Finding :=
  c.findings.filter fun f => f.classification = k

def ofFindings (fs : List Finding) (dirtyBytes : Position) : Comparison :=
  let c := fs.foldl add {}
  finish { c with summary := { c.summary with dirtyBytes } }

end Comparison

/-- Comparison of two layouts. There is no result, be it an error, when their overlay has no end. -/
def compareLayouts (old new : Layout) : Option (Except Error Comparison) :=
  if old = new then some (.ok (Comparison.finish {}))
  else (overlay old new).map fun parts => do
    let aligned ← align parts old
    let findings ← classify aligned old
    return .ofFindings findings (dirtyByteCount parts)

/-- Comparison of two documents. The old one is resolved first. -/
def compareDocuments (old new : Document) : Option (Except Error Comparison) :=
  match old.layout, new.layout with
  | .error e, _ => some (.error e)
  | .ok _, .error e => some (.error e)
  | .ok old, .ok new => compareLayouts old new

/-- Two documents to be compared under a name. -/
structure NamedPair where
  name : String
  old : Document
  new : Document

structure Outcome where
  name : String
  result : Except Error Comparison

/-- The outcome of a comparison that comes to an end. -/
def NamedPair.outcome (p : NamedPair) : Option Outcome :=
  (compareDocuments p.old p.new).map fun result => ⟨p.name, result⟩

/-- A list cut into pieces of some size, the first piece apart from the others. `room` is what the
first piece can take. -/
def cut (size : Nat) : Nat → List α → List α × List (List α)
  | _, [] => ([], [])
  | 0, a :: as =>
    let (piece, pieces) := cut size (size - 1) as
    ([], (a :: piece) :: pieces)
  | room + 1, a :: as =>
    let (piece, pieces) := cut size room as
    (a :: piece, pieces)

/-- Nothing is lost, and the order stays. -/
theorem flatten_cut (size room : Nat) (as : List α) :
    (cut size room as).1 ++ (cut size room as).2.flatten = as := by
  induction as generalizing room with
  | nil => cases room <;> rfl
  | cons a as ih =>
    cases room with
    | zero => simp [cut, ih (size - 1)]
    | succ n => simp [cut, ih n]

/-- Every pair is compared on its own. If there is a number of threads, each of them takes a share
of the pairs. All are waited for, so one comparison without an end leaves no result at all. -/
def compareMany (threads : Option Nat) (pairs : List NamedPair) : Option (List Outcome) :=
  match threads with
  | none | some 0 => pairs.mapM NamedPair.outcome
  | some n =>
    let size := pairs.length / n + 1
    let (first, others) := cut size size pairs
    let tasks := (first :: others).map fun share =>
      Task.spawn fun _ => share.mapM NamedPair.outcome
    (tasks.mapM Task.get).map List.flatten

/-- Shares of a list are gone through one after the other. -/
theorem mapM_flatten (f : α → Option β) (shares : List (List α)) :
    (shares.mapM (List.mapM f)).map List.flatten = shares.flatten.mapM f := by
  induction shares with
  | nil => rfl
  | cons share shares ih =>
    rw [List.flatten_cons, List.mapM_append, ← ih, List.mapM_cons]
    cases share.mapM f with
    | none => rfl
    | some bs => cases shares.mapM (List.mapM f) <;> rfl

/-- The number of threads has no influence. -/
theorem compareMany_eq_mapM (threads : Option Nat) (pairs : List NamedPair) :
    compareMany threads pairs = pairs.mapM NamedPair.outcome := by
  unfold compareMany
  split
  · rfl
  · rfl
  · next n _ =>
    have h := flatten_cut (pairs.length / n + 1) (pairs.length / n + 1) pairs
    conv => rhs; rw [← h, ← List.flatten_cons, ← mapM_flatten]
    simp only [List.mapM_map]
    rfl

end StorageUpgrade
