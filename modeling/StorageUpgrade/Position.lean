/-!
# Positions

Storage is one line of bytes, 32 to a slot. A position is a byte on that line, and the same numbers
serve for sizes and for slots. Slots go up to `2^256 - 1`, so positions are kept below `2^320`.
-/
namespace StorageUpgrade

/-- A byte position, a size in bytes or the number of a slot. -/
abbrev Position := Nat

namespace Position

/-- Every position lies below this bound. -/
def limit : Nat := Nat.pow 2 320

def slotSize : Nat := 32

/-- Every slot lies below this bound. -/
def slotLimit : Nat := Nat.pow 2 256

/-- Sum of two positions, held at the last one. -/
def addCapped (a b : Position) : Position := if a + b < limit then a + b else limit - 1

theorem addCapped_of_lt {a b : Position} (h : a + b < limit) : addCapped a b = a + b := by
  simp [addCapped, h]

/-- Value of a letter or digit in a radix up to 36. -/
def digitValue (c : Char) : Option Nat :=
  if '0' ≤ c ∧ c ≤ '9' then some (c.toNat - '0'.toNat)
  else if 'a' ≤ c ∧ c ≤ 'z' then some (c.toNat - 'a'.toNat + 10)
  else if 'A' ≤ c ∧ c ≤ 'Z' then some (c.toNat - 'A'.toNat + 10)
  else none

inductive Fault where
  | badDigit (c : Char)
  | tooLarge
  deriving DecidableEq

/-- A character outside ASCII is reported by the first byte of its UTF-8 form. -/
def leadByte (c : Char) : Char :=
  let n := c.toNat
  if n < 0x80 then c
  else if n < 0x800 then Char.ofNat (0xc0 + n / 0x40)
  else if n < 0x10000 then Char.ofNat (0xe0 + n / 0x1000)
  else Char.ofNat (0xf0 + n / 0x40000)

/-- Digits read from the left onto the value so far. Underscores are passed over. -/
def readDigits (radix : Nat) (value : Nat) : List Char → Except Fault Position
  | [] => .ok value
  | c :: cs =>
    if c = '_' then readDigits radix value cs
    else
      match digitValue c with
      | none => .error (.badDigit (leadByte c))
      | some d =>
        if d < radix then
          if value * radix + d < limit then readDigits radix (value * radix + d) cs
          else .error .tooLarge
        else .error (.badDigit c)

/-- A position spelled in full. A leading `0x`, `0o` or `0b` selects the radix. -/
def ofChars : List Char → Except Fault Position
  | '0' :: 'x' :: cs | '0' :: 'X' :: cs => readDigits 16 0 cs
  | '0' :: 'o' :: cs | '0' :: 'O' :: cs => readDigits 8 0 cs
  | '0' :: 'b' :: cs | '0' :: 'B' :: cs => readDigits 2 0 cs
  | cs => readDigits 10 0 cs

end Position

end StorageUpgrade
