import StorageUpgrade.Text.Lines

/-!
# Lines of two texts to be compared

The last line of a text may lack its line feed. Such a line only equals another line without one.
The lines that both texts have in common at their beginning and end are set aside, all but a few,
before the rest is compared.
-/
namespace StorageUpgrade.LineDiff

/-- A line, and whether a line feed ends it. -/
structure Line where
  text : List Char
  complete : Bool
  deriving DecidableEq

/-- Every line but the last one is complete. -/
def markLines : List (List Char) → List Line
  | [] => []
  | [last] => if last.isEmpty then [] else [⟨last, false⟩]
  | line :: rest => ⟨line, true⟩ :: markLines rest

def linesOf (text : List Char) : List Line := markLines (Text.splitOn '\n' text)

def commonStart : List Line → List Line → Nat
  | a :: as, b :: bs => if a = b then commonStart as bs + 1 else 0
  | _, _ => 0

def endsIncomplete (ls : List Line) : Bool := ls.getLast?.any fun l => !l.complete

/-- How many lines are set aside at the beginning and at the end, when this many common lines stay
on either side. -/
def setAside (kept : Nat) (old new : List Line) : Nat × Nat :=
  let front := commonStart old new - kept
  let back := commonStart (old.drop front).reverse (new.drop front).reverse - kept
  (front, if endsIncomplete old = endsIncomplete new then back else 0)

/-- What is left of a text without the lines set aside. -/
def middle (aside : Nat × Nat) (ls : List Line) : List Line :=
  (ls.drop aside.1).take (ls.length - aside.1 - aside.2)

end StorageUpgrade.LineDiff
