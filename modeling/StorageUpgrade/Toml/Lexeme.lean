import StorageUpgrade.Toml.Value

/-!
# Keys, strings, numbers and dates of TOML

A parser takes what it recognises off the front of a text, or there is no answer.
-/
namespace StorageUpgrade.Toml

/-- Takes a value off the front of a text. -/
abbrev Parser (α : Type) := StateT (List Char) Option α

namespace Parser

def fail {α : Type} : Parser α := fun _ => none

def peek : Parser (Option Char) := fun cs => some (cs.head?, cs)

def one (test : Char → Bool) : Parser Char
  | c :: cs => if test c then some (c, cs) else none
  | [] => none

def char (c : Char) : Parser Unit := do let _ ← one (· = c)

def chars : List Char → Parser Unit
  | [] => pure ()
  | c :: cs => do char c; chars cs

def takeWhile (test : Char → Bool) : Parser (List Char) := fun cs =>
  some (cs.takeWhile test, cs.dropWhile test)

def takeWhile1 (test : Char → Bool) : Parser (List Char) := do
  let cs ← takeWhile test
  if cs.isEmpty then fail else return cs

/-- A parser, or nothing. -/
def maybe {α : Type} (p : Parser α) : Parser (Option α) := fun cs =>
  match p cs with
  | some (a, rest) => some (some a, rest)
  | none => some (none, cs)

/-- As many answers of a parser as there are, at most so many. -/
def many {α : Type} (p : Parser α) : Nat → Parser (List α)
  | 0 => return []
  | n + 1 => do
    match ← maybe p with
    | none => return []
    | some a => return a :: (← many p n)

/-- Number of characters left, which bounds the answers that take a character each. -/
def room : Parser Nat := fun cs => some (cs.length, cs)

/-- As many answers of a parser as there are. -/
def all {α : Type} (p : Parser α) : Parser (List α) := do many p (← room)

end Parser

open StorageUpgrade.Toml.Parser

def isSpace (c : Char) : Bool := c = ' ' || c = '\t'

/-- A character that may stand in a comment or, apart from its own delimiters, in a string. -/
def isPlain (c : Char) : Bool := c = '\t' || (0x20 ≤ c.toNat && c.toNat ≠ 0x7f)

def spaces : Parser Unit := do let _ ← takeWhile isSpace

/-- A line feed, with or without a carriage return. -/
def newline : Parser Unit := do
  let _ ← maybe (char '\r')
  char '\n'

def comment : Parser Unit := do
  char '#'
  let _ ← takeWhile isPlain

def isHexDigit (c : Char) : Bool :=
  c.isDigit || ('a' ≤ c && c ≤ 'f') || ('A' ≤ c && c ≤ 'F')

/-- Value of a digit in a radix up to sixteen. -/
def digitValue (c : Char) : Nat :=
  if c.isDigit then c.toNat - '0'.toNat
  else if 'a' ≤ c ∧ c ≤ 'f' then c.toNat - 'a'.toNat + 10
  else c.toNat - 'A'.toNat + 10

def numberOf (radix : Nat) (digits : List Char) : Nat :=
  digits.foldl (fun n c => n * radix + digitValue c) 0

def codePoint (digits : Nat) : Parser Char := do
  let cs ← many (one isHexDigit) digits
  let n := numberOf 16 cs
  if cs.length = digits ∧ (n < 0xd800 ∨ (0xdfff < n ∧ n < 0x110000)) then return Char.ofNat n
  else fail

def escape : Parser Char := do
  match ← one fun _ => true with
  | 'b' => return '\x08'
  | 't' => return '\t'
  | 'n' => return '\n'
  | 'f' => return '\x0c'
  | 'r' => return '\r'
  | '"' => return '"'
  | '\\' => return '\\'
  | 'u' => codePoint 4
  | 'U' => codePoint 8
  | _ => fail

def basicChar : Parser Char := do
  let c ← one fun c => isPlain c && c ≠ '"'
  if c = '\\' then escape else return c

def basicString : Parser String := do
  char '"'
  let cs ← all basicChar
  char '"'
  return String.ofList cs

def literalString : Parser String := do
  char '\''
  let cs ← takeWhile fun c => isPlain c && c ≠ '\''
  char '\''
  return String.ofList cs

/-- A backslash at the end of a line takes the blanks up to the next character with it. -/
def lineJoin : Parser (List Char) := do
  char '\\'
  spaces
  newline
  let _ ← all (one isSpace *> pure () <|> newline)
  return []

def basicPiece : Parser (List Char) :=
  lineJoin <|> (do newline; return ['\n']) <|> (do return [← basicChar])

def literalPiece : Parser (List Char) :=
  (do newline; return ['\n']) <|> (do return [← one fun c => isPlain c && c ≠ '\''])

/-- One or two delimiters that do not end a string over several lines. -/
def innerQuotes (quote : Char) (piece : Parser (List Char)) : Parser (List Char) := do
  let quotes ← takeWhile1 (· = quote)
  if 2 < quotes.length then fail
  else return quotes ++ (← piece)

/-- A string between tripled delimiters. Up to two more may stand in front of the closing ones. -/
def longString (quote : Char) (piece : Parser (List Char)) : Parser String := do
  chars [quote, quote, quote]
  let _ ← maybe newline
  let body ← all (piece <|> innerQuotes quote piece)
  let closing ← takeWhile (· = quote)
  if closing.length < 3 ∨ 5 < closing.length then fail
  else return String.ofList (body.flatten ++ closing.drop 3)

/-- A string of any of the four kinds. -/
def string : Parser String :=
  longString '"' basicPiece <|> longString '\'' literalPiece <|> basicString <|> literalString

def isBare (c : Char) : Bool := c.isAlphanum || c = '_' || c = '-'

def simpleKey : Parser String :=
  basicString <|> literalString <|> (do return String.ofList (← takeWhile1 isBare))

/-- Most parts that a key may have. -/
def maxDepth : Nat := 80

def key : Parser (List String × String) := do
  let first ← simpleKey
  let rest ← all do
    spaces
    char '.'
    spaces
    simpleKey
  let parts := first :: rest
  if parts.length < maxDepth then return (parts.dropLast, parts.getLastD first) else fail

/-- Digits with single underscores between them. -/
def digits (test : Char → Bool) : Parser (List Char) := do
  let first ← takeWhile1 test
  let rest ← all do
    char '_'
    takeWhile1 test
  return first ++ rest.flatten

/-- A sign: minus one for a minus. -/
def sign : Parser (Option Int) :=
  maybe ((do char '-'; return -1) <|> (do char '+'; return 1))

/-- Decimal digits without a superfluous zero in front. -/
def decimal : Parser (List Char) := do
  let ds ← digits Char.isDigit
  if 1 < ds.length ∧ ds.head? = some '0' then fail else return ds

def word (n : Int) : Parser Int :=
  if -9223372036854775808 ≤ n ∧ n < 9223372036854775808 then pure n else fail

def marked (mark : Char) (radix : Nat) (test : Char → Bool) : Parser Int := do
  chars ['0', mark]
  word (numberOf radix (← digits test))

def integer : Parser Int :=
  marked 'x' 16 isHexDigit <|> marked 'o' 8 (fun c => '0' ≤ c && c ≤ '7') <|>
    marked 'b' 2 (fun c => c = '0' || c = '1') <|> do
      let s ← sign
      let ds ← decimal
      word (s.getD 1 * numberOf 10 ds)

/-- Digits behind the letter of an exponent, with their sign. -/
def exponent : Parser Int := do
  let _ ← one fun c => c = 'e' || c = 'E'
  let s ← sign
  return s.getD 1 * numberOf 10 (← digits Char.isDigit)

/-- The number `digits * 10 ^ exponent` is finite in binary arithmetic. -/
def isFinite (digits : Nat) (exponent : Int) : Bool :=
  let e := if exponent < -5000 then -5000 else if 5000 < exponent then 5000 else exponent
  digits = 0 || !(Float.ofScientific digits (e < 0) e.natAbs).isInf

/-- A number with a fraction or an exponent, or one of the words for what is not a number. -/
def float : Parser Unit := do
  let _ ← sign
  chars ['i', 'n', 'f'] <|> chars ['n', 'a', 'n'] <|> do
    let whole ← decimal
    let fraction ← maybe (do char '.'; digits Char.isDigit)
    let exp ← maybe exponent
    if fraction.isNone && exp.isNone then fail
    else
      let fraction := fraction.getD []
      if isFinite (numberOf 10 (whole ++ fraction)) (exp.getD 0 - fraction.length) then pure ()
      else fail

/-- A number of exactly so many digits within bounds. -/
def bounded (count least greatest : Nat) : Parser Nat := do
  let cs ← many (one Char.isDigit) count
  let n := numberOf 10 cs
  if cs.length = count ∧ least ≤ n ∧ n ≤ greatest then return n else fail

def daysIn (year month : Nat) : Nat :=
  if month = 2 then
    if year % 4 = 0 ∧ (year % 100 ≠ 0 ∨ year % 400 = 0) then 29 else 28
  else if month = 4 ∨ month = 6 ∨ month = 9 ∨ month = 11 then 30
  else 31

def date : Parser Unit := do
  let year ← bounded 4 0 9999
  char '-'
  let month ← bounded 2 1 12
  char '-'
  let _ ← bounded 2 1 (daysIn year month)

/-- A time of day, with seconds and perhaps a fraction of one. -/
def time : Parser Unit := do
  let _ ← bounded 2 0 23
  char ':'
  let _ ← bounded 2 0 59
  char ':'
  let _ ← bounded 2 0 60
  let _ ← maybe (do char '.'; takeWhile1 Char.isDigit)

def zone : Parser Unit :=
  (do let _ ← one fun c => c = 'Z' || c = 'z') <|> do
    let _ ← one fun c => c = '+' || c = '-'
    let _ ← bounded 2 0 23
    char ':'
    let _ ← bounded 2 0 59

def dateTime : Parser Unit :=
  (do
    date
    let _ ← maybe do
      let _ ← one fun c => c = 'T' || c = 't' || c = ' '
      time
      maybe zone) <|> time

end StorageUpgrade.Toml
