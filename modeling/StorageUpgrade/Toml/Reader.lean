import StorageUpgrade.Toml.Lexeme

/-!
# Reading TOML documents

A document is a sequence of lines: headers, which open a table, and keys with their values, which go
into the table opened last.
-/
namespace StorageUpgrade.Toml

open StorageUpgrade.Toml.Parser

/-- Blanks, line ends and comments, which may stand anywhere between the brackets of an array. -/
def filler : Parser Unit := do
  let _ ← all ((one isSpace *> pure ()) <|> newline <|> do comment; newline)

/-- Elements of an array, each followed by a comma except perhaps for the last one. -/
def arrayElements (value : Parser Value) : Nat → Parser (List Value)
  | 0 => return []
  | n + 1 => do
    filler
    match ← maybe value with
    | none => return []
    | some v =>
      filler
      match ← maybe (char ',') with
      | none => return [v]
      | some _ => return v :: (← arrayElements value n)

def keyValue (value : Parser Value) : Parser (List String × String × Value) := do
  let (path, name) ← key
  spaces
  char '='
  spaces
  return (path, name, ← value)

/-- Keys with their values between braces, with commas in between. -/
def inlineEntries (value : Parser Value) : Parser (List (List String × String × Value)) := do
  spaces
  match ← maybe (keyValue value) with
  | none => return []
  | some first =>
    spaces
    let rest ← all do
      char ','
      spaces
      let entry ← keyValue value
      spaces
      return entry
    return first :: rest

/-- The table of some keys with their values. -/
def tableOf : List (List String × String × Value) → Entries → Option Entries
  | [], es => some es
  | (path, name, v) :: rest, es => do tableOf rest (← es.defineAt .inlined path name v)

def scalar : Parser Value :=
  (do return .text (← string)) <|>
  (do dateTime; return .date) <|>
  (do float; return .float) <|>
  (do return .integer (← integer)) <|>
  (do chars ['t', 'r', 'u', 'e']; return .bool true) <|>
  (do chars ['f', 'a', 'l', 's', 'e']; return .bool false)

/-- A value with fewer than so many levels of brackets. -/
def value : Nat → Parser Value
  | 0 => scalar
  | depth + 1 => do
    match ← peek with
    | some '[' =>
      if depth = 0 then fail
      else
        char '['
        let vs ← arrayElements (value depth) (← room)
        filler
        char ']'
        return .array vs
    | some '\x7b' =>
      if depth = 0 then fail
      else
        char '\x7b'
        let entries ← inlineEntries (value depth)
        spaces
        char '\x7d'
        match tableOf entries [] with
        | none => fail
        | some es => return .table .inlined es
    | _ => scalar

/-- What a document says so far, and the path of the table opened last. -/
structure State where
  entries : Entries
  current : List String

/-- The end of a line, or of the document. -/
def lineEnd : Parser Unit := do
  spaces
  let _ ← maybe comment
  match ← peek with
  | none => pure ()
  | some _ => newline

def given {α : Type} : Option α → Parser α
  | some a => pure a
  | none => fail

/-- A header between single or double brackets. -/
def header (s : State) : Parser State := do
  char '['
  match ← maybe (char '[') with
  | some _ =>
    spaces
    let (path, name) ← key
    spaces
    chars [']', ']']
    lineEnd
    return ⟨← given (s.entries.openTables path name), path ++ [name]⟩
  | none =>
    spaces
    let (path, name) ← key
    spaces
    char ']'
    lineEnd
    return ⟨← given (s.entries.openTable path name), path ++ [name]⟩

def line (s : State) : Parser State := do
  spaces
  match ← peek with
  | none => return s
  | some '[' => header s
  | some '#' | some '\n' | some '\r' => lineEnd; return s
  | some _ =>
    let (path, name, v) ← keyValue (value maxDepth)
    lineEnd
    return { s with entries := ← given (s.entries.defineIn s.current path name v) }

/-- The lines of a document, at most so many. -/
def lines : Nat → State → Parser Entries
  | 0, s => return s.entries
  | n + 1, s => do
    match ← peek with
    | none => return s.entries
    | some _ => lines n (← line s)

/-- The table of a document. A byte order mark in front is passed over. -/
def parse? (text : String) : Option Entries :=
  let cs := match text.toList with
    | '\ufeff' :: cs => cs
    | cs => cs
  (lines (cs.length + 1) ⟨[], []⟩ cs).map (·.1)

end StorageUpgrade.Toml
