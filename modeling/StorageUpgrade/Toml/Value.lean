/-!
# TOML values and tables

A table is built up by headers and by dotted keys, and each way of building closes it to the other
ways. A table remembers how it came about for that reason.
-/
namespace StorageUpgrade.Toml

/-- How a table came about. -/
inductive Origin where
  /-- By a header of its own, or as the document itself. -/
  | header
  /-- As a parent of a table with a header. -/
  | parent
  /-- By a dotted key. -/
  | dotted
  /-- By a value between braces. -/
  | inlined
  deriving DecidableEq

/-- A value. Numbers with a fraction, dates and times are not told apart any further. -/
inductive Value where
  | text (s : String)
  | integer (n : Int)
  | float
  | bool (b : Bool)
  | date
  | array (elements : List Value)
  | table (origin : Origin) (entries : List (String × Value))
  /-- Tables with headers between double brackets. -/
  | tables (elements : List (List (String × Value)))

abbrev Entries := List (String × Value)

namespace Entries

def lookup? (es : Entries) (key : String) : Option Value :=
  (List.find? (fun e => e.1 = key) es).map (·.2)

/-- The entries with another value under a key. -/
def put (es : Entries) (key : String) (v : Value) : Entries :=
  if List.any es (fun e => e.1 = key) then
    List.map (fun e => if e.1 = key then (key, v) else e) es
  else es ++ [(key, v)]

/-- A change to the table that a path leads to. Missing tables are made on the way. A path goes
through the last one of several tables, and never through a value. A dotted key goes only through
tables made by dotted keys. -/
def changeAt (dotted : Bool) (change : Origin → Entries → Option Entries) :
    List String → Origin → Entries → Option Entries
  | [], origin, es => change origin es
  | key :: path, _, es =>
    match es.lookup? key with
    | none => do
      let origin := if dotted then Origin.dotted else .parent
      let inner ← changeAt dotted change path origin []
      return es.put key (.table origin inner)
    | some (.table .inlined _) => none
    | some (.table origin inner) =>
      if dotted ∧ origin = .header then none
      else do
        let inner ← changeAt dotted change path origin inner
        return es.put key (.table origin inner)
    | some (.tables all) =>
      match all.getLast? with
      | none => none
      | some last => do
        let last ← changeAt dotted change path .header last
        return es.put key (.tables (all.dropLast ++ [last]))
    | some _ => none

/-- A value under a key that has none yet. -/
def define (es : Entries) (key : String) (v : Value) : Option Entries :=
  if (es.lookup? key).isSome then none else some (es.put key v)

/-- A key with its value, in a table and along a dotted path. A path must not end in a table that
was made in another way. -/
def defineAt (origin : Origin) (es : Entries) (path : List String) (key : String) (v : Value) :
    Option Entries :=
  changeAt true (fun reached es =>
    if path.isEmpty ∨ reached = .dotted then es.define key v else none) path origin es

/-- The table of a header. It may be there already as a parent of other tables. -/
def openTable (es : Entries) (path : List String) (key : String) : Option Entries :=
  changeAt false (fun _ es =>
    match es.lookup? key with
    | none => some (es.put key (.table .header []))
    | some (.table .parent inner) => some (es.put key (.table .header inner))
    | some _ => none) path .header es

/-- One more table of a header between double brackets. -/
def openTables (es : Entries) (path : List String) (key : String) : Option Entries :=
  changeAt false (fun _ es =>
    match es.lookup? key with
    | none => some (es.put key (.tables [[]]))
    | some (.tables all) => some (es.put key (.tables (all ++ [[]])))
    | some _ => none) path .header es

/-- A key with its value in the table of the current header. -/
def defineIn (es : Entries) (current : List String) (path : List String) (key : String)
    (v : Value) : Option Entries :=
  changeAt false (fun origin es => es.defineAt origin path key v) current .header es

end Entries

end StorageUpgrade.Toml
