import StorageUpgrade.LineDiff.Lines

/-!
# Shortest edit paths

Two sequences span a grid, on which a diagonal step keeps a common line and the other steps delete
or insert one. The shortest path is searched from both corners at the same time, and where the two
searches meet the problem falls into two smaller ones.
-/
namespace StorageUpgrade.LineDiff

/-- A part of the grid: lines `x₀` to `x₁` of the old text and `y₀` to `y₁` of the new one. -/
structure Box where
  x₀ : Nat
  x₁ : Nat
  y₀ : Nat
  y₁ : Nat

structure Grid where
  old : Array Line
  new : Array Line

namespace Grid

def agree (g : Grid) (x y : Nat) : Bool :=
  match g.old[x]?, g.new[y]? with
  | some a, some b => a = b
  | _, _ => false

/-- Number of common lines that follow a point inside a box. -/
def slideDown (g : Grid) (b : Box) : Nat → Nat → Nat → Nat
  | 0, _, _ => 0
  | steps + 1, x, y =>
    if x < b.x₁ ∧ y < b.y₁ ∧ g.agree x y then slideDown g b steps (x + 1) (y + 1) + 1 else 0

/-- Number of common lines in front of a point inside a box. -/
def slideUp (g : Grid) (b : Box) : Nat → Nat → Nat → Nat
  | 0, _, _ => 0
  | steps + 1, x, y =>
    if b.x₀ < x ∧ b.y₀ < y ∧ g.agree (x - 1) (y - 1) then slideUp g b steps (x - 1) (y - 1) + 1
    else 0

end Grid

/-- Farthest point reached on every diagonal, for the diagonals `d` with `0 ≤ d + shift`. -/
structure Frontier where
  reached : Array Int
  shift : Int

namespace Frontier

def get (f : Frontier) (d : Int) : Int := f.reached.getD (d + f.shift).toNat 0

def set (f : Frontier) (d x : Int) : Frontier :=
  { f with reached := f.reached.setIfInBounds (d + f.shift).toNat x }

end Frontier

/-- One of the two searches: what it has reached, on diagonals `low` to `high`. -/
structure Search where
  frontier : Frontier
  low : Int
  high : Int

/-- The search spreads by one diagonal on either side, or shrinks where the box ends. A diagonal
that is new starts at `outside`. -/
def Search.spread (s : Search) (least greatest outside : Int) : Search :=
  let s :=
    if least < s.low then
      { s with frontier := s.frontier.set (s.low - 2) outside, low := s.low - 1 }
    else { s with low := s.low + 1 }
  if s.high < greatest then
    { s with frontier := s.frontier.set (s.high + 2) outside, high := s.high + 1 }
  else { s with high := s.high - 1 }

/-- One step of the search from the upper corner on the diagonals from `d` down. It meets the other
search where that has come as far back. -/
def stepDown (g : Grid) (b : Box) (odd : Bool) (other : Search) :
    Nat → Int → Search → Sum (Nat × Nat) Search
  | 0, _, s => .inr s
  | steps + 1, d, s =>
    if d < s.low then .inr s
    else
      let lower := s.frontier.get (d - 1)
      let upper := s.frontier.get (d + 1)
      let x := if lower < upper then upper else lower + 1
      let y := x - d
      let run :=
        if 0 ≤ x ∧ 0 ≤ y then g.slideDown b (b.x₁ + 1) x.toNat y.toNat else 0
      let x := x + run
      let s := { s with frontier := s.frontier.set d x }
      if odd && other.low ≤ d && d ≤ other.high && other.frontier.get d ≤ x then
        .inl (x.toNat, (x - d).toNat)
      else stepDown g b odd other steps (d - 2) s

/-- One step of the search from the lower corner on the diagonals from `d` down. -/
def stepUp (g : Grid) (b : Box) (odd : Bool) (other : Search) :
    Nat → Int → Search → Sum (Nat × Nat) Search
  | 0, _, s => .inr s
  | steps + 1, d, s =>
    if d < s.low then .inr s
    else
      let lower := s.frontier.get (d - 1)
      let upper := s.frontier.get (d + 1)
      let x := if lower < upper then lower else upper - 1
      let y := x - d
      let run :=
        if 0 ≤ x ∧ 0 ≤ y then g.slideUp b (b.x₁ + 1) x.toNat y.toNat else 0
      let x := x - run
      let s := { s with frontier := s.frontier.set d x }
      if !odd && other.low ≤ d && d ≤ other.high && x ≤ other.frontier.get d then
        .inl (x.toNat, (x - d).toNat)
      else stepUp g b odd other steps (d - 2) s

/-- The point where the two searches meet. Each round makes both paths longer by one edit. -/
def meet (g : Grid) (b : Box) (least greatest : Int) (odd : Bool) :
    Nat → Search → Search → Nat × Nat
  | 0, _, _ => (b.x₀, b.y₀)
  | rounds + 1, down, up =>
    let far : Int := g.old.size + g.new.size + 2
    let down := down.spread least greatest (-1)
    match stepDown g b odd up (g.old.size + g.new.size + 2) down.high down with
    | .inl point => point
    | .inr down =>
      let up := up.spread least greatest far
      match stepUp g b odd down (g.old.size + g.new.size + 2) up.high up with
      | .inl point => point
      | .inr up => meet g b least greatest odd rounds down up

def middlePoint (g : Grid) (b : Box) : Nat × Nat :=
  let least : Int := (b.x₀ : Int) - b.y₁
  let greatest : Int := (b.x₁ : Int) - b.y₀
  let first : Int := (b.x₀ : Int) - b.y₀
  let last : Int := (b.x₁ : Int) - b.y₁
  let blank : Frontier :=
    ⟨Array.replicate (g.old.size + g.new.size + 5) 0, (g.new.size : Int) + 2⟩
  meet g b least greatest ((first - last) % 2 ≠ 0) (g.old.size + g.new.size + 1)
    ⟨blank.set first b.x₀, first, first⟩ ⟨blank.set last b.x₁, last, last⟩

/-- Lines of either sequence that a shortest path through a box deletes or inserts. -/
def pathEdits (g : Grid) : Nat → Box → List Nat × List Nat
  | 0, _ => ([], [])
  | steps + 1, b =>
    let ahead := g.slideDown b (b.x₁ + 1) b.x₀ b.y₀
    let b := { b with x₀ := b.x₀ + ahead, y₀ := b.y₀ + ahead }
    let behind := g.slideUp b (b.x₁ + 1) b.x₁ b.y₁
    let b := { b with x₁ := b.x₁ - behind, y₁ := b.y₁ - behind }
    if b.x₀ = b.x₁ then ([], (List.range (b.y₁ - b.y₀)).map (b.y₀ + ·))
    else if b.y₀ = b.y₁ then ((List.range (b.x₁ - b.x₀)).map (b.x₀ + ·), [])
    else
      let (x, y) := middlePoint g b
      let left := pathEdits g steps { b with x₁ := x, y₁ := y }
      let right := pathEdits g steps { b with x₀ := x, y₀ := y }
      (left.1 ++ right.1, left.2 ++ right.2)

/-- Lines of either sequence that a shortest path deletes or inserts. -/
def shortestEdits (g : Grid) : List Nat × List Nat :=
  pathEdits g (g.old.size + g.new.size + 1) ⟨0, g.old.size, 0, g.new.size⟩

end StorageUpgrade.LineDiff
