import StorageUpgrade.LineDiff.Lines

/-!
# Lines left out of the comparison

A line that the other text does not have is changed for certain. A line that the other text has
very often is left out as well when it stands among such lines, for it would only attract
coincidences.
-/
namespace StorageUpgrade.LineDiff

/-- What is to become of a line. -/
inductive Fate where
  | keep
  | drop
  /-- Dropped only among dropped lines. -/
  | doubtful
  deriving DecidableEq

/-- How often a number can be divided by four before it reaches zero, less one. -/
def quarterings : Nat → Nat → Nat
  | 0, _ => 0
  | steps + 1, n => if n / 4 = 0 then 0 else quarterings steps (n / 4) + 1

/-- Number of matches above which a line of a text with so many lines is doubtful. -/
def doubtLimit (lines : Nat) : Nat := 5 * Nat.pow 2 (quarterings lines (lines / 64))

/-- First opinion on the lines of a text, from how often the other text has them. -/
def firstFates (ls other : List Line) : List Fate :=
  ls.map fun l =>
    let matches_ := other.countP (· = l)
    if matches_ = 0 then .drop
    else if doubtLimit ls.length < matches_ then .doubtful
    else .keep

/-- A doubtful line is kept. -/
def Fate.cancel : Fate → Fate
  | doubtful => keep
  | f => f

/-- Doubtful lines are kept where at least so many of them follow each other. -/
def cancelLong (least : Nat) : Nat → List Fate → List Fate
  | 0, fs => fs
  | _, [] => []
  | steps + 1, f :: fs =>
    if f = .doubtful then
      let same := (f :: fs).takeWhile (· = .doubtful)
      let rest := (f :: fs).dropWhile (· = .doubtful)
      (if least ≤ same.length then same.map Fate.cancel else same) ++ cancelLong least steps rest
    else f :: cancelLong least steps fs

/-- Doubtful lines are kept until three dropped lines have followed each other, or until a dropped
line after the first eight. -/
def cancelFront : Nat → Nat → List Fate → List Fate
  | _, _, [] => []
  | seen, dropped, f :: fs =>
    if 8 ≤ seen ∧ f = .drop then f :: fs
    else
      match f with
      | .drop => if dropped = 2 then f :: fs else f :: cancelFront (seen + 1) (dropped + 1) fs
      | _ => .keep :: cancelFront (seen + 1) 0 fs

/-- Opinion on a run of lines that begins and ends with a dropped line and holds no kept one. -/
def settleRun (run : List Fate) : List Fate :=
  if run.length < 4 * run.count .doubtful then run.map Fate.cancel
  else
    let least := Nat.pow 2 (quarterings run.length (run.length / 4)) + 1
    let run := cancelFront 0 0 (cancelLong least run.length run)
    (cancelFront 0 0 run.reverse).reverse

/-- Final opinion: doubtful lines only stay doubtful inside a run of dropped lines. -/
def settle : Nat → List Fate → List Fate
  | 0, fs => fs
  | _, [] => []
  | steps + 1, f :: fs =>
    if f = .drop then
      let run := (f :: fs).takeWhile (· ≠ .keep)
      let core := (run.reverse.dropWhile (· = .doubtful)).reverse
      settleRun core ++ settle steps ((f :: fs).drop core.length)
    else .keep :: settle steps fs

/-- For each line of a text, whether it is left out of the comparison with the other text. -/
def leftOut (ls other : List Line) : List Bool :=
  (settle ls.length (firstFates ls other)).map (· ≠ .keep)

end StorageUpgrade.LineDiff
