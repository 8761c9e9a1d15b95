import StorageUpgrade.Layout
import StorageUpgrade.Schema.Check
import StorageUpgrade.Schema.Encode

/-!
# Layouts as JSON values

Positions are written as decimal texts. The members of a type are left out when there are none.
-/
namespace StorageUpgrade

open Json (Reason)

def ByteRange.schema : Schema :=
  .record "ByteRange" <|
    .cons "start" .required .position <|
    .cons "end" .required .position .nil

def ByteRange.ofData : ByteRange.schema.Data → ByteRange
  | (start, stop, ()) => ⟨start, stop⟩

def ByteRange.toData (r : ByteRange) : ByteRange.schema.Data := (r.start, r.stop, ())

def ByteRange.ofJson (v : Json) : Except Reason ByteRange :=
  (ByteRange.schema.check v).map ofData

def ByteRange.toJson (r : ByteRange) : Json := ByteRange.schema.encode r.toData

def Member.schema : Schema :=
  .record "MemberDescriptor" <|
    .cons "label" .required .text <|
    .cons "type_key" .required .text <|
    .cons "slot" .required .numeral <|
    .cons "offset" .required .numeral .nil

def Member.ofData : Member.schema.Data → Member
  | (label, typeKey, slot, offset, ()) => ⟨label, typeKey, slot, offset⟩

def Member.toData (m : Member) : Member.schema.Data := (m.label, m.typeKey, m.slot, m.offset, ())

def TypeInfo.schema : Schema :=
  .record "TypeDescriptor" <|
    .cons "label" .required .text <|
    .cons "encoding" .required .text <|
    .cons "number_of_bytes" .required .position <|
    .cons "members" .omitted (.list Member.schema) .nil

def TypeInfo.ofData : TypeInfo.schema.Data → TypeInfo
  | (label, encoding, size, members, ()) =>
    ⟨label, encoding, size, (members : List Member.schema.Data).map Member.ofData⟩

def TypeInfo.toData (t : TypeInfo) : TypeInfo.schema.Data :=
  (t.label, t.encoding, t.size, t.members.map Member.toData, ())

def Item.schema : Schema :=
  .record "StorageItem" <|
    .cons "label" .required .text <|
    .cons "start" .required .position <|
    .cons "end" .required .position <|
    .cons "type" .required TypeInfo.schema <|
    .cons "slot" .required .position <|
    .cons "offset" .required .word64 .nil

def Item.ofData : Item.schema.Data → Item
  | (label, start, stop, type, slot, offset, ()) =>
    ⟨label, start, stop, .ofData type, slot, offset⟩

def Item.toData (i : Item) : Item.schema.Data :=
  (i.label, i.start, i.stop, i.type.toData, i.slot, i.offset, ())

def Item.ofJson (v : Json) : Except Reason Item := (Item.schema.check v).map ofData

def Item.toJson (i : Item) : Json := Item.schema.encode i.toData

def Layout.schema : Schema := .list Item.schema

/-- The layout of a JSON value, in the order it is written in. -/
def Layout.ofJson (v : Json) : Except Reason Layout :=
  (Layout.schema.check v).map fun (items : List Item.schema.Data) => items.map Item.ofData

def Layout.toJson (l : Layout) : Json :=
  let items : List Item.schema.Data := l.map Item.toData
  Layout.schema.encode items

end StorageUpgrade
