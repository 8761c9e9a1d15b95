import StorageUpgrade.Json.Value
import StorageUpgrade.Text.Lines

/-!
# JSON texts of values

A value is written on one line without blanks, or over several lines with two spaces of
indentation for each level. Only the quote, the backslash and the controls are escaped.
-/
namespace StorageUpgrade.Json

def hexDigit (n : Nat) : Char := Nat.digitChar n

def escapeChar (c : Char) : List Char :=
  if c = '"' then ['\\', '"']
  else if c = '\\' then ['\\', '\\']
  else if c = '\n' then ['\\', 'n']
  else if c = '\r' then ['\\', 'r']
  else if c = '\t' then ['\\', 't']
  else if c.toNat = 8 then ['\\', 'b']
  else if c.toNat = 12 then ['\\', 'f']
  else if c.toNat < 0x20 then
    ['\\', 'u', '0', '0', hexDigit (c.toNat / 16), hexDigit (c.toNat % 16)]
  else [c]

def stringText (s : String) : String :=
  String.ofList ('"' :: s.toList.flatMap escapeChar ++ ['"'])

def boolText (b : Bool) : String := if b then "true" else "false"

mutual

/-- Text on one line. -/
def compact : Json → String
  | null => "null"
  | bool b => boolText b
  | number n => n.text
  | string s => stringText s
  | array elements => "[" ++ Text.join "," (compactElements elements) ++ "]"
  | object members => "\x7b" ++ Text.join "," (compactMembers members) ++ "\x7d"

def compactElements : List Json → List String
  | [] => []
  | v :: vs => compact v :: compactElements vs

def compactMembers : List (String × Json) → List String
  | [] => []
  | (key, v) :: ms => (stringText key ++ ":" ++ compact v) :: compactMembers ms

end

def indent (level : Nat) : String := String.ofList (List.replicate (2 * level) ' ')

/-- Brackets around parts that take a line each. Nothing stands between the brackets of no part. -/
def bracketed (opening closing : String) (level : Nat) (parts : List String) : String :=
  match parts with
  | [] => opening ++ closing
  | parts =>
    opening ++ "\n" ++ indent (level + 1) ++ Text.join (",\n" ++ indent (level + 1)) parts ++
      "\n" ++ indent level ++ closing

mutual

/-- Text over several lines, for a value that stands at a level. -/
def prettyAt (level : Nat) : Json → String
  | null => "null"
  | bool b => boolText b
  | number n => n.text
  | string s => stringText s
  | array elements => bracketed "[" "]" level (prettyElements (level + 1) elements)
  | object members => bracketed "\x7b" "\x7d" level (prettyMembers (level + 1) members)

def prettyElements (level : Nat) : List Json → List String
  | [] => []
  | v :: vs => prettyAt level v :: prettyElements level vs

def prettyMembers (level : Nat) : List (String × Json) → List String
  | [] => []
  | (key, v) :: ms => (stringText key ++ ": " ++ prettyAt level v) :: prettyMembers level ms

end

def pretty (v : Json) : String := prettyAt 0 v

end StorageUpgrade.Json
