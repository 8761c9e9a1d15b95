import StorageUpgrade.Json.Value
import StorageUpgrade.Schema.Basic

/-!
# Writing data as JSON values

The members of an object stand in the order of the fields, and those of a dictionary in the order
of the keys.
-/
namespace StorageUpgrade

mutual

def Schema.encode : (s : Schema) → s.Data → Json
  | .text, (s : String) => .string s
  | .word32, (n : UInt32) => .number (.natural n.toUInt64)
  | .word64, (n : UInt64) => .number (.natural n)
  | .numeral, .word n => .number (.natural n)
  | .numeral, .text s => .string s
  | .position, (p : Position) => .string (toString p)
  | .choice names, (i : Fin names.length) => .string names[i]
  | .list element, (xs : List element.Data) => .array (xs.map element.encode)
  | .option _, none => .null
  | .option value, some x => value.encode x
  | .dictionary value, (d : Dictionary value.Data) =>
    .object (d.entries.map fun e => (e.1, value.encode e.2))
  | .record _ fields, x => .object (fields.encode x)

/-- The members of a record. An omitted field is left out when it has its default value. -/
def Fields.encode : (f : Fields) → f.Data → List (String × Json)
  | .nil, _ => []
  | .cons name presence schema rest, (x, xs) =>
    if presence = .omitted && schema.isDefault x then rest.encode xs
    else (name, schema.encode x) :: rest.encode xs

end

end StorageUpgrade
