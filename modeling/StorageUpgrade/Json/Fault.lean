import StorageUpgrade.Json.Value
import StorageUpgrade.Position
import StorageUpgrade.Text.Lines
import StorageUpgrade.Text.Quoted

/-!
# Faults of JSON documents

A document can fail to be JSON, or be JSON of the wrong form. Both are reasons with a fixed wording,
and most come with the place in the text where the reading stopped.
-/
namespace StorageUpgrade.Json

/-- What was found where something else was expected. -/
inductive Found where
  | null
  | bool (b : Bool)
  | number (n : Number)
  | string (s : String)
  | sequence
  | map
  deriving DecidableEq

def Found.message : Found → String
  | null => "null"
  | bool b => "boolean `" ++ (if b then "true" else "false") ++ "`"
  | number (.float x) => "floating point `" ++ x.text ++ "`"
  | number n => "integer `" ++ n.text ++ "`"
  | string s => "string " ++ Text.quoted s
  | sequence => "sequence"
  | map => "map"

/-- What a JSON value is, as far as messages tell. -/
def Found.ofJson : Json → Found
  | .null => .null
  | .bool b => .bool b
  | .number n => .number n
  | .string s => .string s
  | .array _ => .sequence
  | .object _ => .map

inductive Reason where
  | eofValue
  | eofString
  | eofObject
  | eofList
  | expectedValue
  | expectedWord
  | expectedColon
  | expectedObjectCommaOrEnd
  | expectedListCommaOrEnd
  | keyMustBeString
  | trailingComma
  | trailingCharacters
  | invalidNumber
  | numberOutOfRange
  | invalidEscape
  | controlCharacter
  | unexpectedEndOfHexEscape
  | loneLeadingSurrogate
  | recursionLimit
  | wrongType (found : Found) (expected : String)
  | wrongValue (found : Found) (expected : String)
  | wrongLength (length : Nat) (expected : String)
  | missingField (name : String)
  | duplicateField (name : String)
  | unknownChoice (name : String) (choices : List String)
  | notNumeral
  | badPosition (fault : Position.Fault)
  deriving DecidableEq

/-- Names between backquotes, with commas. -/
def choiceList (choices : List String) : String :=
  Text.join ", " (choices.map fun c => "`" ++ c ++ "`")

def Reason.message : Reason → String
  | eofValue => "EOF while parsing a value"
  | eofString => "EOF while parsing a string"
  | eofObject => "EOF while parsing an object"
  | eofList => "EOF while parsing a list"
  | expectedValue => "expected value"
  | expectedWord => "expected ident"
  | expectedColon => "expected `:`"
  | expectedObjectCommaOrEnd => "expected `,` or `\x7d`"
  | expectedListCommaOrEnd => "expected `,` or `]`"
  | keyMustBeString => "key must be a string"
  | trailingComma => "trailing comma"
  | trailingCharacters => "trailing characters"
  | invalidNumber => "invalid number"
  | numberOutOfRange => "number out of range"
  | invalidEscape => "invalid escape"
  | controlCharacter => "control character (\\u0000-\\u001F) found while parsing a string"
  | unexpectedEndOfHexEscape => "unexpected end of hex escape"
  | loneLeadingSurrogate => "lone leading surrogate in hex escape"
  | recursionLimit => "recursion limit exceeded"
  | wrongType found expected => "invalid type: " ++ found.message ++ ", expected " ++ expected
  | wrongValue found expected => "invalid value: " ++ found.message ++ ", expected " ++ expected
  | wrongLength length expected =>
    "invalid length " ++ toString length ++ ", expected " ++ expected
  | missingField name => "missing field `" ++ name ++ "`"
  | duplicateField name => "duplicate field `" ++ name ++ "`"
  | unknownChoice name choices =>
    "unknown variant `" ++ name ++ "`, expected one of " ++ choiceList choices
  | notNumeral => "data did not match any variant of untagged enum NumberLike"
  | badPosition (.badDigit c) => "invalid digit: " ++ String.singleton c
  | badPosition .tooLarge => "the value is too large to fit the target type"

/-- Line, counted from one, and number of bytes of that line in front of the place. -/
structure Place where
  line : Nat
  column : Nat
  deriving DecidableEq

/-- Place behind a number of bytes of a text, from the place of its first character. -/
def Place.advance (p : Place) : Nat → List Char → Place
  | 0, _ | _, [] => p
  | bytes, c :: cs =>
    if c = '\n' then advance ⟨p.line + 1, 0⟩ (bytes - 1) cs
    else if bytes < c.utf8Size then ⟨p.line, p.column + bytes⟩
    else advance ⟨p.line, p.column + c.utf8Size⟩ (bytes - c.utf8Size) cs

structure Fault where
  reason : Reason
  place : Option Place
  deriving DecidableEq

def Fault.message (f : Fault) : String :=
  match f.place with
  | none => f.reason.message
  | some p =>
    f.reason.message ++ " at line " ++ toString p.line ++ " column " ++ toString p.column

end StorageUpgrade.Json
