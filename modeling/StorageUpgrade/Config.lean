import StorageUpgrade.FileTree
import StorageUpgrade.Toml.Reader

/-!
# Configuration

Preferences are kept in a TOML document with the sections `output`, `report`, `scanner` and
`parallel`. Every preference may be missing. A document with any fault counts as no document.
-/
namespace StorageUpgrade

structure Config where
  format : Option String := none
  color : Option Bool := none
  compact : Bool := false
  omitNew : Bool := false
  context : Nat := 3
  ignore : List String := []
  extensions : Option (List String) := none
  threads : Option Nat := none
  deriving DecidableEq

namespace Config

open Toml (Value Entries)

/-- Name of the document in the working directory. -/
def fileName : String := ".deltarc.toml"

/-- Patterns that are always ignored. -/
def defaultIgnore : List String := [".git/", "node_modules/", "target/", "out/", "cache/"]

/-- Extensions of layout files when none are given. -/
def defaultExtensions : List String := ["json"]

def text? : Value → Option String
  | .text s => some s
  | _ => none

def bool? : Value → Option Bool
  | .bool b => some b
  | _ => none

def count? : Value → Option Nat
  | .integer n => if 0 ≤ n then some n.toNat else none
  | _ => none

def texts? : Value → Option (List String)
  | .array vs => vs.mapM text?
  | .tables vs => if vs.isEmpty then some [] else none
  | _ => none

/-- Fields of a section: the values of a table by their names, or those of an array in order. -/
def fields? (names : List String) : Value → Option Entries
  | .table _ es => some es
  | .array vs => some (names.zip vs)
  | .tables ts => some (names.zip (ts.map (.table .header)))
  | _ => none

/-- A section, which is empty when it is missing. -/
def section? (es : Entries) (name : String) (names : List String) : Option Entries :=
  match es.lookup? name with
  | none => some []
  | some v => fields? names v

/-- A preference of a section, or its default. -/
def preference? (es : Entries) (name : String) (read : Value → Option α) (default : α) :
    Option α :=
  match es.lookup? name with
  | none => some default
  | some v => read v

def ofEntries? (es : Entries) : Option Config := do
  let output ← section? es "output" ["format", "color", "compact"]
  let report ← section? es "report" ["omit_new", "context"]
  let scanner ← section? es "scanner" ["ignore", "extensions"]
  let parallel ← section? es "parallel" ["threads"]
  let base : Config := {}
  return {
    format := ← preference? output "format" (fun v => (text? v).map some) base.format
    color := ← preference? output "color" (fun v => (bool? v).map some) base.color
    compact := ← preference? output "compact" bool? base.compact
    omitNew := ← preference? report "omit_new" bool? base.omitNew
    context := ← preference? report "context" count? base.context
    ignore := ← preference? scanner "ignore" texts? base.ignore
    extensions := ← preference? scanner "extensions" (fun v => (texts? v).map some) base.extensions
    threads := ← preference? parallel "threads" (fun v => (count? v).map some) base.threads }

def ofText (text : String) : Config := ((Toml.parse? text).bind ofEntries?).getD {}

def ofTree (t : FileTree) : Config :=
  match t.read fileName with
  | .ok text => ofText text
  | .error _ => {}

/-- Patterns to be ignored: those of the document, then the defaults that are not among them. -/
def ignorePatterns (c : Config) : List String :=
  c.ignore ++ defaultIgnore.filter fun p => p ∉ c.ignore

def layoutExtensions (c : Config) : List String :=
  match c.extensions with
  | none | some [] => defaultExtensions
  | some es => es

end Config

end StorageUpgrade
