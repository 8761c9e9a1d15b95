import StorageUpgrade.LineDiff.Confusing
import StorageUpgrade.LineDiff.Path

/-!
# Changed lines

Each text has a flag for every line that the other one does not share. A run of changed lines can
often slide up or down over equal lines without making the edit longer. It slides up to merge with
the run above, then down to merge with the run below, and at last back to a run of the other text.
-/
namespace StorageUpgrade.LineDiff

/-- The lines left for the search, with their places in the whole sequence. -/
def searched (ls : List Line) (out : List Bool) : List (Line × Nat) :=
  ((ls.zipIdx).zip out).filterMap fun (l, out) => if out then none else some l

/-- Flags with those at some places raised. -/
def raise (flags : Array Bool) (places : List Nat) : Array Bool :=
  places.foldl (fun flags i => flags.setIfInBounds i true) flags

/-- Flags of the changed lines of both texts, before any run slides. -/
def roughChanges (old new : List Line) : Array Bool × Array Bool :=
  let oldOut := leftOut old new
  let newOut := leftOut new old
  let xs := searched old oldOut
  let ys := searched new newOut
  let (deleted, inserted) :=
    shortestEdits ⟨(xs.map (·.1)).toArray, (ys.map (·.1)).toArray⟩
  let places (found : List (Line × Nat)) (edits : List Nat) : List Nat :=
    edits.filterMap fun i => found[i]?.map (·.2)
  (raise oldOut.toArray (places xs deleted), raise newOut.toArray (places ys inserted))

/-- A step repeated as long as a condition holds, at most so many times. -/
def repeatWhile (condition : σ → Bool) (step : σ → σ) : Nat → σ → σ
  | 0, s => s
  | n + 1, s => if condition s then repeatWhile condition step n (step s) else s

/-- A run of changed lines from `start` to `stop` while it slides. `place` is the corresponding line
of the other text, and `anchor` the last stop at which that text has changed lines as well. -/
structure Slide where
  flags : Array Bool
  start : Nat
  stop : Nat
  place : Int
  anchor : Nat

namespace Slide

/-- Flag of a line. There is none outside the text. -/
def flagAt (flags : Array Bool) (i : Int) : Bool :=
  if 0 ≤ i then flags.getD i.toNat false else false

def forward (flags : Array Bool) (i : Int) : Int :=
  repeatWhile (flagAt flags) (· + 1) (flags.size + 1) i

def backward (flags : Array Bool) (i : Int) : Int :=
  repeatWhile (flagAt flags) (· - 1) (flags.size + 1) i

variable (ls : Array Line) (other : Array Bool)

/-- The line above the run equals its last line. -/
def canRise (s : Slide) : Bool := 0 < s.start && ls[s.start - 1]? = ls[s.stop - 1]?

/-- The run up by one line, joined with a run above. -/
def rise (s : Slide) : Slide :=
  let flags := (s.flags.setIfInBounds (s.start - 1) true).setIfInBounds (s.stop - 1) false
  { s with
    flags
    start := (backward flags ((s.start : Int) - 2) + 1).toNat
    stop := s.stop - 1
    place := backward other (s.place - 1) }

/-- The line below the run equals its first line. -/
def canSink (s : Slide) : Bool := s.stop < ls.size && ls[s.start]? = ls[s.stop]?

/-- The run down by one line, joined with a run below. -/
def sink (s : Slide) : Slide :=
  let flags := (s.flags.setIfInBounds s.start false).setIfInBounds s.stop true
  let stop := (forward flags ((s.stop : Int) + 1)).toNat
  let place := s.place + 1
  let next := forward other place
  { flags, start := s.start + 1, stop, place := next
    anchor := if next = place then s.anchor else stop }

/-- Up as far as possible, then down as far as possible. -/
def sweep (s : Slide) : Slide :=
  let n := ls.size + 1
  let s := repeatWhile (canRise ls) (rise other) n s
  let s := { s with anchor := if flagAt other (s.place - 1) then s.stop else ls.size }
  repeatWhile (canSink ls) (sink other) n s

/-- Sweeps until one leaves the length of the run as it was. -/
def settle : Nat → Slide → Slide
  | 0, s => s
  | n + 1, s =>
    let t := sweep ls other s
    if t.stop - t.start = s.stop - s.start then t else settle n t

/-- Back up to the anchor. -/
def anchorBack (s : Slide) : Slide :=
  repeatWhile (fun s => s.anchor < s.stop) (fun s =>
    { s with
      flags := (s.flags.setIfInBounds (s.start - 1) true).setIfInBounds (s.stop - 1) false
      start := s.start - 1
      stop := s.stop - 1
      place := backward other (s.place - 1) }) (ls.size + 1) s

/-- Every run from line `i` on slides into its final place. -/
def slideRuns : Nat → Array Bool → Nat → Int → Array Bool
  | 0, flags, _, _ => flags
  | n + 1, flags, i, place =>
    if ls.size ≤ i then flags
    else if flagAt flags i then
      let stop := (forward flags i).toNat
      let s := settle ls other (ls.size + 1) ⟨flags, i, stop, forward other place, 0⟩
      let s := anchorBack ls other s
      slideRuns n s.flags s.stop s.place
    else slideRuns n flags (i + 1) (forward other place + 1)

end Slide

/-- Flags of a text after its runs have slid. -/
def slid (ls : List Line) (flags other : Array Bool) : Array Bool :=
  Slide.slideRuns ls.toArray other (2 * ls.length + 2) flags 0 0

def changes (old new : List Line) : List Bool × List Bool :=
  let (oldFlags, newFlags) := roughChanges old new
  let oldFlags := slid old oldFlags newFlags
  let newFlags := slid new newFlags oldFlags
  (oldFlags.toList, newFlags.toList)

end StorageUpgrade.LineDiff
