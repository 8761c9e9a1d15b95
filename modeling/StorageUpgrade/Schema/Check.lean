import StorageUpgrade.Json.Fault
import StorageUpgrade.Schema.Basic

/-!
# Checking JSON values against a schema

A value that has been read already is taken apart. Members are looked at in their order, unknown
ones are passed over, and missing fields are reported at the end.
-/
namespace StorageUpgrade

open Json (Reason Found)

def wrongType (v : Json) (expected : String) : Except Reason α :=
  .error (.wrongType (.ofJson v) expected)

def checkWord (limit : Nat) (expected : String) : Json → Except Reason UInt64
  | .number (.natural n) =>
    if n.toNat < limit then .ok n else .error (.wrongValue (.number (.natural n)) expected)
  | .number (.negative n) => .error (.wrongValue (.number (.negative n)) expected)
  | v => wrongType v expected

def checkNumeral : Json → Except Reason Numeral
  | .number (.natural n) => .ok (.word n)
  | .string s => .ok (.text s)
  | _ => .error .notNumeral

def checkPosition : Json → Except Reason Position
  | .string s => (Position.ofChars s.toList).mapError .badPosition
  | v => wrongType v "a string"

def checkName (names : List String) (name : String) : Except Reason (Fin names.length) :=
  match names.finIdxOf? name with
  | some i => .ok i
  | none => .error (.unknownChoice name names)

/-- A choice is a name, or an object with the name as its only key and no value under it. -/
def checkChoice (names : List String) : Json → Except Reason (Fin names.length)
  | .string s => checkName names s
  | .object [(key, v)] => do
    let i ← checkName names key
    match v with
    | .null => return i
    | v => wrongType v "unit"
  | .object _ => .error (.wrongValue .map "map with a single key")
  | v => wrongType v "string or map"

def checkElements (check : Json → Except Reason α) : List Json → Except Reason (List α)
  | [] => .ok []
  | v :: vs => do
    let a ← check v
    let as ← checkElements check vs
    return a :: as

/-- Every member in turn. The last value under a key counts. -/
def checkMembers (check : Json → Except Reason α) :
    List (String × Json) → Dictionary α → Except Reason (Dictionary α)
  | [], d => .ok d
  | (key, v) :: ms, d => do
    let a ← check v
    checkMembers check ms (d.insert key a)

/-- The members of a record, each of them stored by its key. -/
def checkFields (store : String → Json → σ → Except Reason σ) :
    List (String × Json) → σ → Except Reason σ
  | [], state => .ok state
  | (key, v) :: ms, state => do checkFields store ms (← store key v state)

/-- Elements a record expects of an array that is too short. -/
def recordLength (name : String) (fields : Fields) : String :=
  "struct " ++ name ++ " with " ++ toString fields.length ++ " element" ++
    (if fields.length = 1 then "" else "s")

mutual

/-- The data of a value that has the form of the schema. -/
def Schema.check : (s : Schema) → Json → Except Reason s.Data
  | .text, v => match v with
    | .string s => .ok s
    | v => wrongType v "a string"
  | .word32, v => (checkWord 4294967296 "u32" v).map UInt64.toUInt32
  | .word64, v => checkWord 18446744073709551616 "u64" v
  | .numeral, v => checkNumeral v
  | .position, v => checkPosition v
  | .choice names, v => checkChoice names v
  | .list element, v => match v with
    | .array vs => checkElements element.check vs
    | v => wrongType v "a sequence"
  | .option value, v => match v with
    | .null => .ok none
    | v => (value.check v).map some
  | .dictionary value, v => match v with
    | .object ms => checkMembers value.check ms .empty
    | v => wrongType v "a map"
  | .record name fields, v => match v with
    | .object ms => do
      let state ← checkFields fields.store ms fields.noneRead
      (fields.complete state).mapError .missingField
    | .array vs => do
      let (data, rest) ← fields.checkArray (recordLength name fields) 0 vs
      if rest.isEmpty then return data
      else .error (.wrongLength vs.length "fewer elements in array")
    | v => wrongType v ("struct " ++ name)

/-- The value of a member stored in the field with its name. -/
def Fields.store : (f : Fields) → String → Json → f.Partial → Except Reason f.Partial
  | .nil, _, _, state => .ok state
  | .cons name _ schema rest, key, v, (slot, others) =>
    if key = name then
      if slot.isSome then .error (.duplicateField name)
      else do
        let x ← schema.check v
        return (some x, others)
    else do
      let others ← rest.store key v others
      return (slot, others)

/-- The fields taken from the front of an array, and the elements left. -/
def Fields.checkArray (expected : String) : (f : Fields) → Nat → List Json →
    Except Reason (f.Data × List Json)
  | .nil, _, vs => .ok ((), vs)
  | .cons _ presence schema rest, taken, [] =>
    if presence = .required then .error (.wrongLength taken expected)
    else
      match schema.default? with
      | none => .error (.wrongLength taken expected)
      | some x => do
        let (xs, vs) ← rest.checkArray expected (taken + 1) []
        return ((x, xs), vs)
  | .cons _ _ schema rest, taken, v :: vs => do
    let x ← schema.check v
    let (xs, vs) ← rest.checkArray expected (taken + 1) vs
    return ((x, xs), vs)

end

end StorageUpgrade
