import StorageUpgrade.Schema.Encode
import StorageUpgrade.Schema.Read

/-!
# Layout documents

What the compiler writes about the storage of a contract: the variables in the order of their
declaration, and a dictionary of the types that they refer to.
-/
namespace StorageUpgrade

/-- A variable of the contract, or a member of a struct type. -/
structure Document.Record where
  astId : Option UInt64
  contract : Option String
  label : String
  offset : Numeral
  slot : Numeral
  typeKey : String
  deriving DecidableEq

structure Document.TypeDef where
  encoding : String
  label : String
  size : Numeral
  members : Option (List Document.Record)
  deriving DecidableEq

/-- A layout document. A contract without variables may have no dictionary. -/
structure Document where
  storage : List Document.Record
  types : Option (Dictionary Document.TypeDef)
  deriving DecidableEq

namespace Document

def empty : Document := ⟨[], none⟩

def resolve (d : Document) (typeKey : String) : Option TypeDef := do (← d.types).find? typeKey

def recordSchema (name : String) : Schema :=
  .record name <|
    .cons "astId" .omitted (.option .word64) <|
    .cons "contract" .omitted (.option .text) <|
    .cons "label" .required .text <|
    .cons "offset" .required .numeral <|
    .cons "slot" .required .numeral <|
    .cons "type" .required .text .nil

def typeSchema : Schema :=
  .record "RawType" <|
    .cons "encoding" .required .text <|
    .cons "label" .required .text <|
    .cons "numberOfBytes" .required .numeral <|
    .cons "members" .omitted (.option (.list (recordSchema "RawMember"))) .nil

def schema : Schema :=
  .record "RawLayout" <|
    .cons "storage" .defaulted (.list (recordSchema "RawStorageEntry")) <|
    .cons "types" .defaulted (.option (.dictionary typeSchema)) .nil

def Record.ofData {name : String} : (recordSchema name).Data → Record
  | (astId, contract, label, offset, slot, typeKey, ()) =>
    ⟨astId, contract, label, offset, slot, typeKey⟩

def Record.toData {name : String} (r : Record) : (recordSchema name).Data :=
  (r.astId, r.contract, r.label, r.offset, r.slot, r.typeKey, ())

def TypeDef.ofData : typeSchema.Data → TypeDef
  | (encoding, label, size, members, ()) =>
    ⟨encoding, label, size,
      (members : Option (List (recordSchema "RawMember").Data)).map (·.map Record.ofData)⟩

def TypeDef.toData (t : TypeDef) : typeSchema.Data :=
  (t.encoding, t.label, t.size, t.members.map (·.map Record.toData), ())

def ofData : schema.Data → Document
  | (storage, types, ()) =>
    ⟨(storage : List (recordSchema "RawStorageEntry").Data).map Record.ofData,
      (types : Option (Dictionary typeSchema.Data)).map (·.map TypeDef.ofData)⟩

def toData (d : Document) : schema.Data :=
  (d.storage.map Record.toData, d.types.map (·.map TypeDef.toData), ())

def ofText (text : String) : Except Json.Fault Document := (schema.ofText text).map ofData

def ofJson (v : Json) : Except Json.Reason Document := (schema.check v).map ofData

def toJson (d : Document) : Json := schema.encode d.toData

def TypeDef.toJson (t : TypeDef) : Json := typeSchema.encode t.toData

end Document

end StorageUpgrade
