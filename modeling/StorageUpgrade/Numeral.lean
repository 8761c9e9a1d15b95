import StorageUpgrade.Position
import StorageUpgrade.Text.Blank

/-!
# Numerals

The compiler writes slots and sizes as texts and offsets as numbers. A numeral keeps the form it
was written in, and its value is read off leniently: blanks around a text do not count, `0x`
selects hexadecimal, and the longest run of digits at the front is the number.
-/
namespace StorageUpgrade

/-- A number as a layout document writes it. -/
inductive Numeral where
  | word (value : UInt64)
  | text (spelling : String)
  deriving DecidableEq

namespace Numeral

def isHexDigit (c : Char) : Bool :=
  c.isDigit || ('a' ≤ c && c ≤ 'f') || ('A' ≤ c && c ≤ 'F')

/-- Number spelled by a run of digits. -/
def valueOf (radix : Nat) (digits : List Char) : Nat :=
  digits.foldl (fun value c => value * radix + (Position.digitValue c).getD 0) 0

/-- A nonempty run of digits whose value is a position. -/
def ofRun (radix : Nat) (digits : List Char) : Option Position :=
  if digits.isEmpty then none
  else if valueOf radix digits < Position.limit then some (valueOf radix digits)
  else none

/-- Value of a text freed of its outer blanks. -/
def ofTrimmed : List Char → Option Position
  | '0' :: 'x' :: cs | '0' :: 'X' :: cs => ofRun 16 (cs.takeWhile isHexDigit)
  | cs => ofRun 10 (cs.takeWhile Char.isDigit)

/-- Value of a numeral, if it has one below the limit of positions. -/
def value? : Numeral → Option Position
  | word n => some n.toNat
  | text s => ofTrimmed (Text.trim s.toList)

def spelling : Numeral → String
  | word n => toString n.toNat
  | text s => s

end Numeral

end StorageUpgrade
