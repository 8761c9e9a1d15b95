/-!
# Floating-point numbers of documents

A floating-point number is kept as the 64 bits of its binary form. Its text has the fewest digits
that read back as the same number, and among those the digits nearest to it.
-/
namespace StorageUpgrade.Json

/-- A number with a decimal point or an exponent, by its binary form. -/
structure Float64 where
  bits : UInt64
  deriving DecidableEq

namespace Float64

structure Decimal where
  digits : Nat
  exponent : Int

/-- The number is negative, or minus zero. -/
def isNegative (x : Float64) : Bool := x.bits.toNat / Nat.pow 2 63 = 1

/-- Significand `m` and exponent `q` of the magnitude `m * 2 ^ q`. -/
def parts (x : Float64) : Nat × Int :=
  let e := x.bits.toNat / Nat.pow 2 52 % 2048
  let m := x.bits.toNat % Nat.pow 2 52
  if e = 0 then (m, -1074) else (m + Nat.pow 2 52, (e : Int) - 1075)

/-- The reals that round to a number: the number `value / unit` itself and the two ends, over a
common denominator, with the ends belonging to it or not. -/
structure Interval where
  low : Nat
  value : Nat
  high : Nat
  unit : Nat
  closed : Bool

/-- The reals that round to the magnitude. The gap below a power of two is half as wide. -/
def interval (x : Float64) : Interval :=
  let (m, q) := x.parts
  let gap := if m = Nat.pow 2 52 ∧ -1074 < q then 1 else 2
  let scale := Nat.pow 2 (q - 2).toNat
  ⟨(4 * m - gap) * scale, 4 * m * scale, (4 * m + 2) * scale, Nat.pow 2 (2 - q).toNat, m % 2 = 0⟩

namespace Interval

/-- The decimal `digits * 10 ^ exponent` lies in the interval. -/
def holds (i : Interval) (d : Decimal) : Bool :=
  let scaled := d.digits * Nat.pow 10 d.exponent.toNat * i.unit
  let ten := Nat.pow 10 (-d.exponent).toNat
  if i.closed then i.low * ten ≤ scaled && scaled ≤ i.high * ten
  else i.low * ten < scaled && scaled < i.high * ten

/-- Greatest multiple of `10 ^ exponent` that is not above the value, in units of that power. -/
def floor (i : Interval) (exponent : Int) : Nat :=
  i.value * Nat.pow 10 (-exponent).toNat / (i.unit * Nat.pow 10 exponent.toNat)

/-- Twice the value, less the sum of the two neighbours on the grid, is not negative: the upper
neighbour is as near as the lower one, or nearer. -/
def roundsUp (i : Interval) (exponent : Int) : Bool :=
  let lower := i.floor exponent
  (2 * lower + 1) * (i.unit * Nat.pow 10 exponent.toNat) ≤
    2 * i.value * Nat.pow 10 (-exponent).toNat

/-- The neighbour of the value on the grid of this power of ten that lies in the interval, the
nearer one if both do. -/
def neighbour? (i : Interval) (exponent : Int) : Option Decimal :=
  let lower : Decimal := ⟨i.floor exponent, exponent⟩
  let upper : Decimal := ⟨i.floor exponent + 1, exponent⟩
  match i.holds lower, i.holds upper with
  | true, true => some (if i.roundsUp exponent then upper else lower)
  | true, false => some lower
  | false, true => some upper
  | false, false => none

/-- First power of ten, going down from `exponent`, whose grid has a point in the interval. -/
def coarsest (i : Interval) : Nat → Int → Decimal
  | 0, exponent => ⟨i.floor exponent, exponent⟩
  | tries + 1, exponent =>
    match i.neighbour? exponent with
    | some d => d
    | none => coarsest i tries (exponent - 1)

end Interval

/-- Power of ten at which the search for digits may begin: it is above every double. -/
def topExponent : Int := 309

/-- Decimal with the fewest digits among those that read back. -/
def shortest (x : Float64) : Decimal := x.interval.coarsest 700 topExponent

/-- Digits of a positive decimal as they are written: positional from `10 ^ -5` to `10 ^ 16`, with
an exponent beyond. -/
def decimalChars (d : Decimal) : List Char :=
  let digits := Nat.toDigits 10 d.digits
  let point := (digits.length : Int) + d.exponent
  if 0 ≤ d.exponent ∧ point ≤ 16 then
    digits ++ List.replicate d.exponent.toNat '0' ++ ['.', '0']
  else if 0 < point ∧ point ≤ 16 then
    digits.take point.toNat ++ '.' :: digits.drop point.toNat
  else if -5 < point ∧ point ≤ 0 then
    '0' :: '.' :: List.replicate (-point).toNat '0' ++ digits
  else
    let fraction := if digits.length = 1 then [] else '.' :: digits.drop 1
    digits.take 1 ++ fraction ++ 'e' :: (toString (point - 1)).toList

def text (x : Float64) : String :=
  let sign := if x.isNegative then ['-'] else []
  let magnitude := if x.parts.1 = 0 then ['0', '.', '0'] else decimalChars x.shortest
  String.ofList (sign ++ magnitude)

/-- Quotient by a power of ten, one table step of at most `10 ^ 308` at a time. -/
def shrink : Nat → Float → Nat → Float
  | 0, f, _ => f
  | steps + 1, f, n =>
    if n ≤ 308 then f / Float.ofScientific 1 false n
    else shrink steps (f / Float.ofScientific 1 false 308) (n - 308)

/-- The number read as `significand * 10 ^ exponent`, in binary arithmetic: the significand is
rounded first and scaled after that. There is none when it is too large. -/
def ofParts (negative : Bool) (significand : UInt64) (exponent : Int) : Option Float64 :=
  let f := significand.toFloat
  let scaled :=
    if exponent < 0 then shrink 5 f (-exponent).toNat
    else if exponent ≤ 308 then f * Float.ofScientific 1 false exponent.toNat
    else if significand = 0 then f
    else 1 / 0
  if scaled.isInf then none
  else some ⟨(if negative then -scaled else scaled).toBits⟩

def zero (negative : Bool) : Float64 := ⟨if negative then 0x8000000000000000 else 0⟩

end Float64

end StorageUpgrade.Json
