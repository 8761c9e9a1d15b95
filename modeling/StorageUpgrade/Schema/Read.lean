import StorageUpgrade.Json.Reader
import StorageUpgrade.Schema.Check

/-!
# Reading documents by their schema

A text is read straight into the data of a schema. The first fault from the left is the one
reported, be it a fault of the text or of its form.
-/
namespace StorageUpgrade

open Json Json.Reader

/-- Stop on a value that begins with this character and is not of the expected kind. Numbers,
strings and words are read first, and the place is the one behind them. -/
def unexpected (first : Char) (expected : String) : Reader α := do
  match first with
  | '[' => stopHere (.wrongType .sequence expected)
  | '\x7b' => stopHere (.wrongType .map expected)
  | 'n' => word ['u', 'l', 'l']; stopHere (.wrongType .null expected)
  | 't' => word ['r', 'u', 'e']; stopHere (.wrongType (.bool true) expected)
  | 'f' => word ['a', 'l', 's', 'e']; stopHere (.wrongType (.bool false) expected)
  | '"' => let s ← readString; stopHere (.wrongType (.string s) expected)
  | x =>
    if x = '-' || x.isDigit then
      let n ← readNumber
      stopHere (.wrongType (.number n) expected)
    else stopAtNext .expectedValue

def readText (expected : String) : Reader String := do
  match ← peekToken with
  | none => stopAtNext .eofValue
  | some '"' => readString
  | some x => unexpected x expected

def readWord (limit : Nat) (expected : String) : Reader UInt64 := do
  match ← peekToken with
  | none => stopAtNext .eofValue
  | some x =>
    if x = '-' || x.isDigit then
      let n ← readNumber
      match checkWord limit expected (.number n) with
      | .ok n => return n
      | .error reason => stopHere reason
    else unexpected x expected

/-- Data of a value of any kind that was taken apart after it had been read. -/
def readThen (depth : Nat) (check : Json → Except Reason α) : Reader α := do
  let v ← readValue depth
  match check v with
  | .ok a => return a
  | .error reason => stopUnplaced reason

def readPosition : Reader Position := do
  let s ← readText "a string"
  match checkPosition (.string s) with
  | .ok p => return p
  | .error reason => stopUnplaced reason

def readName (names : List String) : Reader (Fin names.length) := do
  let s ← readString
  match checkName names s with
  | .ok i => return i
  | .error reason => stopHere reason

/-- The null under the name of a choice, and the end of its object. -/
def readUnit : Reader Unit := do
  colon
  match ← peekToken with
  | none => stopAtNext .eofValue
  | some 'n' => word ['u', 'l', 'l']
  | some x => unexpected x "unit"
  match ← peekToken with
  | none => stopAtNext .eofObject
  | some x => if x = '\x7d' then skipChar else stopAtNext .expectedValue

/-- A choice is a name, or an object with the name as its only key and no value under it. -/
def readChoice (depth : Nat) (names : List String) : Reader (Fin names.length) := do
  match ← peekToken with
  | none => stopAtNext .eofValue
  | some '"' => readName names
  | some '\x7b' =>
    deeper depth fun _ => do
      skipChar
      match ← peekToken with
      | none => stopAtNext .eofValue
      | some '"' =>
        let i ← readName names
        readUnit
        return i
      | some x => unexpected x "variant identifier"
  | some _ => stopAtNext .expectedValue

mutual

/-- The data of a text that has the form of the schema, with at most this many levels of
brackets. -/
def Schema.read : (s : Schema) → Nat → Reader s.Data
  | .text, _ => readText "a string"
  | .word32, _ => fun c => (readWord 4294967296 "u32" c).map fun (n, c) => (n.toUInt32, c)
  | .word64, _ => readWord 18446744073709551616 "u64"
  | .numeral, depth => readThen depth checkNumeral
  | .position, _ => readPosition
  | .choice names, depth => readChoice depth names
  | .list element, depth => do
    match ← peekToken with
    | none => stopAtNext .eofValue
    | some '[' => deeper depth fun depth => readList (element.read depth)
    | some x => unexpected x "a sequence"
  | .option value, depth => do
    match ← peekToken with
    | some 'n' => word ['u', 'l', 'l']; return none
    | _ => return some (← value.read depth)
  | .dictionary value, depth => do
    match ← peekToken with
    | none => stopAtNext .eofValue
    | some '\x7b' =>
      deeper depth fun depth =>
        readObject (fun key (d : Dictionary value.Data) => do
          colon
          return d.insert key (← value.read depth)) .empty
    | some x => unexpected x "a map"
  | .record name fields, depth => do
    match ← peekToken with
    | none => stopAtNext .eofValue
    | some '[' =>
      deeper depth fun depth =>
        between endOfList (fields.readArray (recordLength name fields) depth 0)
    | some '\x7b' =>
      deeper depth fun depth => between endOfObject fun c =>
        (members (fields.readMember depth) (c.rest.length + 1) true fields.noneRead).andThen
          (fun state =>
            match fields.complete state with
            | .ok data => pure data
            | .error name => stopUnplaced (.missingField name)) c
    | some x => unexpected x ("struct " ++ name)

/-- The member under a key, stored in the field with its name. A member without a field is passed
over. -/
def Fields.readMember : (f : Fields) → Nat → String → f.Partial → Reader f.Partial
  | .nil, _, _, state => do
    colon
    skipValue
    return state
  | .cons name _ schema rest, depth, key, (slot, others) => do
    if key = name then
      if slot.isSome then stopUnplaced (.duplicateField name)
      else
        colon
        let x ← schema.read depth
        return (some x, others)
    else
      let others ← rest.readMember depth key others
      return (slot, others)

/-- The fields as elements of an array, up to its closing bracket. -/
def Fields.readArray (expected : String) : (f : Fields) → Nat → Nat → Reader f.Data
  | .nil, _, _ => return ()
  | .cons _ presence schema rest, depth, taken => do
    if ← anotherElement (taken == 0) then
      let x ← schema.read depth
      let xs ← rest.readArray expected depth (taken + 1)
      return (x, xs)
    else
      match (if presence = .required then none else schema.default?) with
      | none => stopUnplaced (.wrongLength taken expected)
      | some x =>
        let xs ← rest.readArray expected depth (taken + 1)
        return (x, xs)

end

def Schema.ofText (s : Schema) (text : String) : Except Fault s.Data :=
  Json.readAll (s.read maxDepth) text

end StorageUpgrade
