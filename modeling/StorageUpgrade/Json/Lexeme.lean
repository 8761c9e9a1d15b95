import StorageUpgrade.Json.Cursor

/-!
# Strings, numbers and words of JSON

The readers here begin at the first character of a string, number or word, and stop with the reason
and place of the first byte that does not fit. Values that nobody asks for are passed over by
readers of their own, which check less.
-/
namespace StorageUpgrade.Json

open Reader

def hexValue? (c : Char) : Option Nat :=
  if '0' ≤ c ∧ c ≤ '9' then some (c.toNat - '0'.toNat)
  else if 'a' ≤ c ∧ c ≤ 'f' then some (c.toNat - 'a'.toNat + 10)
  else if 'A' ≤ c ∧ c ≤ 'F' then some (c.toNat - 'A'.toNat + 10)
  else none

/-- The four hexadecimal digits of an escape. The text must have four more bytes for them. -/
def hexEscape : Reader Nat := fun c =>
  let bytes := Cursor.offsetAfter.total c.rest
  if bytes < 4 then .error (.placed .eofString (c.offset + bytes))
  else
    match c.rest with
    | a :: b :: d :: e :: rest =>
      match hexValue? a, hexValue? b, hexValue? d, hexValue? e with
      | some a, some b, some d, some e =>
        .ok (((a * 16 + b) * 16 + d) * 16 + e, ⟨rest, c.offset + 4⟩)
      | _, _, _, _ => .error (.placed .invalidEscape (c.offset + 4))
    | _ => .error (.placed .invalidEscape (c.offset + 4))

/-- The second half of a surrogate pair, and the character of the pair. -/
def trailingSurrogate (leading : Nat) : Reader Char := do
  match ← peek with
  | none => stopHere .eofString
  | some x =>
    if x ≠ '\\' then stopAfter 1 .unexpectedEndOfHexEscape
    else do
      skipChar
      match ← peek with
      | none => stopHere .eofString
      | some y =>
        if y ≠ 'u' then stopAfter 1 .unexpectedEndOfHexEscape
        else do
          skipChar
          let n ← hexEscape
          if 0xdc00 ≤ n ∧ n ≤ 0xdfff then
            return Char.ofNat (0x10000 + (leading - 0xd800) * 0x400 + (n - 0xdc00))
          else stopHere .loneLeadingSurrogate

/-- The character that an escape stands for, from behind the backslash. -/
def escape : Reader Char := do
  match ← peek with
  | none => stopHere .eofString
  | some x =>
    match x with
    | '"' | '\\' | '/' => skipChar; return x
    | 'b' => skipChar; return '\x08'
    | 'f' => skipChar; return '\x0c'
    | 'n' => skipChar; return '\n'
    | 'r' => skipChar; return '\r'
    | 't' => skipChar; return '\t'
    | 'u' =>
      skipChar
      let n ← hexEscape
      if 0xdc00 ≤ n ∧ n ≤ 0xdfff then stopHere .loneLeadingSurrogate
      else if 0xd800 ≤ n ∧ n ≤ 0xdbff then trailingSurrogate n
      else return Char.ofNat n
    | _ => stopAfter 1 .invalidEscape

/-- The next character of a string, or none at its closing quote. -/
def stringChar : Reader (Option Char) := do
  match ← peek with
  | none => stopHere .eofString
  | some '"' => skipChar; return none
  | some '\\' => skipChar; return some (← escape)
  | some x => if x.toNat < 0x20 then stopAfter 1 .controlCharacter else skipChar; return some x

/-- The characters of a string up to its closing quote, behind those read already. No string has
more characters than the text, so the count does not run out. -/
def stringChars : Nat → List Char → Reader (List Char)
  | 0, read => return read.reverse
  | n + 1, read => do
    match ← stringChar with
    | none => return read.reverse
    | some x => stringChars n (x :: read)

/-- A string, from its opening quote. -/
def readString : Reader String := do
  skipChar
  let c ← here
  return String.ofList (← stringChars (c.rest.length + 1) [])

/-- Pass over an escape: four hexadecimal digits may stand for any code. -/
def skipEscape : Reader Unit := do
  match ← peek with
  | none => stopHere .eofString
  | some x =>
    if x = 'u' then
      skipChar
      let _ ← hexEscape
    else if x ∈ ['"', '\\', '/', 'b', 'f', 'n', 'r', 't'] then skipChar
    else stopAfter 1 .invalidEscape

def skipStringChars : Nat → Reader Unit
  | 0 => return ()
  | n + 1 => do
    match ← peek with
    | none => stopHere .eofString
    | some '"' => skipChar
    | some '\\' => skipChar; skipEscape; skipStringChars n
    | some x => if x.toNat < 0x20 then stopHere .controlCharacter else skipChar; skipStringChars n

def skipString : Reader Unit := do
  skipChar
  let c ← here
  skipStringChars (c.rest.length + 1)

/-- Number spelled by decimal digits, behind a number read already. -/
def digitsValue (start : Nat) (digits : List Char) : Nat :=
  digits.foldl (fun n c => n * 10 + (c.toNat - '0'.toNat)) start

/-- Digits taken into a significand of 64 bits: the significand, and how many digits it has no room
for. -/
def significand (start : Nat) : List Char → Nat × Nat
  | [] => (start, 0)
  | c :: cs =>
    let next := start * 10 + (c.toNat - '0'.toNat)
    if next < Nat.pow 2 64 then significand next cs else (start, (c :: cs).length)

/-- The number of a significand and a power of ten, if it is not too large. -/
def scaled (negative : Bool) (n : Nat) (exponent : Int) : Reader Number := do
  match Float64.ofParts negative (UInt64.ofNat n) exponent with
  | some x => return .float x
  | none => stopHere .numberOutOfRange

/-- First prefix of a run of digits whose value no longer fits 32 bits with a sign. -/
def exponentOverflow (value : Nat) : List Char → Option (List Char)
  | [] => none
  | c :: cs =>
    let next := value * 10 + (c.toNat - '0'.toNat)
    if next < Nat.pow 2 31 then exponentOverflow next cs else some cs

/-- The exponent of a number, from its letter. -/
def exponentPart (negative : Bool) (n : Nat) (start : Int) : Reader Number := do
  skipChar
  let sign ← peek
  if sign = some '+' ∨ sign = some '-' then skipChar
  let down := sign = some '-'
  match ← peek with
  | none => stopHere .eofValue
  | some x =>
    if !x.isDigit then stopAfter 1 .invalidNumber
    else do
      let c ← here
      let digits := c.rest.takeWhile Char.isDigit
      match exponentOverflow 0 digits with
      | some unread =>
        if n ≠ 0 ∧ !down then stopAfter (digits.length - unread.length) .numberOutOfRange
        else do
          goTo (c.skipWhile Char.isDigit)
          return .float (.zero negative)
      | none =>
        goTo (c.skipWhile Char.isDigit)
        let e := (digitsValue 0 digits : Int)
        scaled negative n (if down then start - e else start + e)

/-- The fraction of a number, from its point. Digits beyond the significand are dropped. -/
def fractionPart (negative : Bool) (n : Nat) (start : Int) : Reader Number := do
  skipChar
  let digits ← takeWhile Char.isDigit
  if digits.isEmpty then
    match ← peek with
    | none => stopHere .eofValue
    | some _ => stopAtNext .invalidNumber
  else do
    let (m, dropped) := significand n digits
    let exponent := start - ((digits.length - dropped : Nat) : Int)
    match ← peek with
    | some 'e' | some 'E' => exponentPart negative m exponent
    | _ => scaled negative m exponent

/-- An integer of 64 bits, or minus zero or a smaller number as a floating-point number. -/
def wholeNumber (negative : Bool) (n : Nat) : Number :=
  if !negative then .natural (UInt64.ofNat n)
  else if 0 < n ∧ n ≤ Nat.pow 2 63 then .negative n
  else .float ⟨(-(UInt64.ofNat n).toFloat).toBits⟩

/-- A number without its sign. -/
def unsignedNumber (negative : Bool) : Reader Number := do
  match ← peek with
  | none => stopHere .eofValue
  | some x =>
    if !x.isDigit then stopAfter 1 .invalidNumber
    else do
      let digits ← (if x = '0' then do skipChar; return ['0'] else takeWhile Char.isDigit)
      let next ← peek
      if x = '0' ∧ (next.any Char.isDigit) then stopAtNext .invalidNumber
      else do
        let (n, dropped) := significand 0 digits
        match next with
        | some '.' => fractionPart negative n dropped
        | some 'e' | some 'E' => exponentPart negative n dropped
        | _ => if dropped = 0 then return wholeNumber negative n else scaled negative n dropped

/-- A number, from its sign or first digit. -/
def readNumber : Reader Number := do
  if (← peek) = some '-' then
    skipChar
    unsignedNumber true
  else unsignedNumber false

def skipExponent : Reader Unit := do
  skipChar
  let sign ← peek
  if sign = some '+' ∨ sign = some '-' then skipChar
  if (← peek).any Char.isDigit then
    let _ ← takeWhile Char.isDigit
  else stopAfter 1 .invalidNumber

def skipNumber : Reader Unit := do
  if (← peek) = some '-' then skipChar
  match ← peek with
  | some '0' =>
    skipChar
    if (← peek).any Char.isDigit then stopAtNext .invalidNumber
  | x =>
    if x.any Char.isDigit then
      let _ ← takeWhile Char.isDigit
    else stopAfter 1 .invalidNumber
  if (← peek) = some '.' then
    skipChar
    if (← takeWhile Char.isDigit).isEmpty then stopAtNext .invalidNumber
  match ← peek with
  | some 'e' | some 'E' => skipExponent
  | _ => return ()

/-- The letters of a word behind its first one. -/
def wordRest : List Char → Reader Unit
  | [] => return ()
  | x :: xs => do
    match ← peek with
    | none => stopHere .eofValue
    | some y => if y = x then skipChar; wordRest xs else stopAfter 1 .expectedWord

/-- A word, whose first letter is known. -/
def word (letters : List Char) : Reader Unit := do
  skipChar
  wordRest letters

end StorageUpgrade.Json
