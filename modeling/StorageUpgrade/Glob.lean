/-!
# Globs

A glob describes sequences of bytes. Matching follows every way of taking a front part off a
sequence, and a glob matches when one of the ways leaves nothing.
-/
namespace StorageUpgrade

/-- Bytes within one of some ranges, or outside all of them. -/
structure ByteClass where
  negated : Bool
  ranges : List (UInt8 × UInt8)
  deriving DecidableEq

namespace ByteClass

def holds (c : ByteClass) (b : UInt8) : Bool :=
  c.negated != c.ranges.any fun r => r.1 ≤ b && b ≤ r.2

def all : ByteClass := ⟨true, []⟩

def only (b : UInt8) : ByteClass := ⟨false, [(b, b)]⟩

def slash : UInt8 := 0x2f

/-- Every byte but that of a slash. -/
def withinName : ByteClass := ⟨true, [(slash, slash)]⟩

end ByteClass

/-- A form of byte sequences. -/
inductive Glob where
  | nothing
  | one (c : ByteClass)
  /-- Any number of bytes. -/
  | run (c : ByteClass)
  | both (a b : Glob)
  | either (a b : Glob)
  deriving DecidableEq

namespace Glob

/-- What may be left of a sequence behind a run. -/
def afterRun (c : ByteClass) : List UInt8 → List (List UInt8)
  | [] => [[]]
  | b :: bs => if c.holds b then (b :: bs) :: afterRun c bs else [b :: bs]

/-- What may be left of one of some sequences behind a byte. -/
def afterOne (c : ByteClass) (rests : List (List UInt8)) : List (List UInt8) :=
  rests.filterMap fun rest =>
    match rest with
    | [] => none
    | b :: bs => if c.holds b then some bs else none

/-- What may be left of one of some sequences behind a front part of the form. -/
def after : Glob → List (List UInt8) → List (List UInt8)
  | nothing, rests => rests
  | one c, rests => afterOne c rests
  | run c, rests => (rests.flatMap (afterRun c)).eraseDups
  | both a b, rests => b.after (a.after rests)
  | either a b, rests => a.after rests ++ b.after rests

def holds (g : Glob) (bytes : List UInt8) : Bool := (g.after [bytes]).any List.isEmpty

def sequence (gs : List Glob) : Glob := gs.foldr both nothing

def bytes (bs : List UInt8) : Glob := sequence (bs.map fun b => one (.only b))

def slash : Glob := one (.only ByteClass.slash)

def accepts (g : Glob) (text : String) : Bool := g.holds text.toUTF8.toList

end Glob

end StorageUpgrade
