import StorageUpgrade.Dictionary
import StorageUpgrade.Numeral

/-!
# Schemas of documents

A schema describes the form of a JSON value and determines the type of the data it carries. Every
document of the project is described once, and reading, checking and writing follow from that.
-/
namespace StorageUpgrade

/-- How a field of a record may be missing. An omitted field is also left out when it is written
with its default value. -/
inductive Presence where
  | required
  | defaulted
  | omitted
  deriving DecidableEq

mutual

/-- Form of a value. -/
inductive Schema where
  | text
  | word32
  | word64
  | numeral
  /-- A position spelled in full inside a string. -/
  | position
  /-- One of a few names. -/
  | choice (names : List String)
  | list (element : Schema)
  | option (value : Schema)
  | dictionary (value : Schema)
  /-- Named fields, written as an object. An array of the fields in order is read as well. -/
  | record (name : String) (fields : Fields)

/-- Fields of a record in their order. -/
inductive Fields where
  | nil
  | cons (name : String) (presence : Presence) (schema : Schema) (rest : Fields)

end

mutual

/-- Data that a value of this form carries. -/
def Schema.Data : Schema → Type
  | .text => String
  | .word32 => UInt32
  | .word64 => UInt64
  | .numeral => Numeral
  | .position => Position
  | .choice names => Fin names.length
  | .list element => List element.Data
  | .option value => Option value.Data
  | .dictionary value => Dictionary value.Data
  | .record _ fields => fields.Data

def Fields.Data : Fields → Type
  | .nil => Unit
  | .cons _ _ schema rest => schema.Data × rest.Data

end

def Fields.Partial : Fields → Type
  | .nil => Unit
  | .cons _ _ schema rest => Option schema.Data × rest.Partial

namespace Fields

def noneRead : (f : Fields) → f.Partial
  | .nil => ()
  | .cons _ _ _ rest => (none, rest.noneRead)

def length : Fields → Nat
  | .nil => 0
  | .cons _ _ _ rest => rest.length + 1

end Fields

namespace Schema

/-- Data of a field that is missing although it may be. -/
def default? : (s : Schema) → Option s.Data
  | .list _ => some ([] : List _)
  | .option _ => some (none : Option _)
  | .dictionary _ => some (Dictionary.empty : Dictionary _)
  | _ => none

/-- The data is that of a missing field. -/
def isDefault : (s : Schema) → s.Data → Bool
  | .list _, (xs : List _) => xs.isEmpty
  | .option _, (x : Option _) => x.isNone
  | .dictionary _, (d : Dictionary _) => d.entries.isEmpty
  | _, _ => false

/-- Data of a field that is not there. A value that may be null needs no permission to be missing
from an object. -/
def absent? : Presence → (s : Schema) → Option s.Data
  | .required, .option _ => some (none : Option _)
  | .required, _ => none
  | _, s => s.default?

/-- What messages expect of a value. -/
def expectation : Schema → String
  | .text | .position => "a string"
  | .word32 => "u32"
  | .word64 => "u64"
  | .numeral => "a number or a string"
  | .choice _ => "string or map"
  | .list _ => "a sequence"
  | .option value => value.expectation
  | .dictionary _ => "a map"
  | .record name _ => "struct " ++ name

end Schema

/-- Data of the missing fields filled in, or the first field that must not be missing. -/
def Fields.complete : (f : Fields) → f.Partial → Except String f.Data
  | .nil, _ => .ok ()
  | .cons name presence schema rest, (slot, others) =>
    match slot <|> schema.absent? presence with
    | none => .error name
    | some value => (rest.complete others).map fun values => (value, values)

end StorageUpgrade
