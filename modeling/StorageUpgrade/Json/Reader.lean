import StorageUpgrade.Json.Lexeme

/-!
# Arrays, objects and whole values of JSON

Elements and members are read one by one, so that the first fault of a text is the one reported.
Values may be nested in 127 levels of brackets, except for those that are passed over.
-/
namespace StorageUpgrade.Json

open Reader

variable {α β : Type}

/-- An element follows: the comma in front of it is taken. The closing bracket is left in place. -/
def anotherElement (first : Bool) : Reader Bool := do
  match ← peekToken with
  | none => stopAtNext .eofList
  | some x =>
    if x = ']' then return false
    else if first then return true
    else if x = ',' then
      skipChar
      match ← peekToken with
      | none => stopAtNext .eofValue
      | some y => if y = ']' then stopAtNext .trailingComma else return true
    else stopAtNext .expectedListCommaOrEnd

/-- A member follows: the comma in front of it is taken. The closing bracket is left in place. -/
def anotherMember (first : Bool) : Reader Bool := do
  match ← peekToken with
  | none => stopAtNext .eofObject
  | some x =>
    if x = '\x7d' then return false
    else if first then if x = '"' then return true else stopAtNext .keyMustBeString
    else if x = ',' then
      skipChar
      match ← peekToken with
      | none => stopAtNext .eofValue
      | some y =>
        if y = '"' then return true
        else if y = '\x7d' then stopAtNext .trailingComma
        else stopAtNext .keyMustBeString
    else stopAtNext .expectedObjectCommaOrEnd

def colon : Reader Unit := do
  match ← peekToken with
  | none => stopAtNext .eofObject
  | some x => if x = ':' then skipChar else stopAtNext .expectedColon

/-- The elements up to the closing bracket. There are no more of them than characters. -/
def elements (element : Reader α) : Nat → Bool → Reader (List α)
  | 0, _ => return []
  | n + 1, first => do
    if ← anotherElement first then
      let a ← element
      return a :: (← elements element n false)
    else return []

/-- The members up to the closing bracket, each of them taken into a state by its key. -/
def members (member : String → α → Reader α) : Nat → Bool → α → Reader α
  | 0, _, state => return state
  | n + 1, first, state => do
    if ← anotherMember first then
      let key ← readString
      members member n false (← member key state)
    else return state

/-- The cursor behind the end of an array, and what is wrong with that end. -/
def endOfList (c : Cursor) : Cursor × Option Stop :=
  let c := c.skipBlanks
  match c.rest with
  | [] => (c, some (.placed .eofList c.peekOffset))
  | x :: _ =>
    if x = ']' then (c.advance, none)
    else if x = ',' then
      let d := c.advance.skipBlanks
      if d.rest.head? = some ']' then (d, some (.placed .trailingComma d.peekOffset))
      else (d, some (.placed .trailingCharacters d.peekOffset))
    else (c, some (.placed .trailingCharacters c.peekOffset))

/-- The cursor behind the end of an object, and what is wrong with that end. -/
def endOfObject (c : Cursor) : Cursor × Option Stop :=
  let c := c.skipBlanks
  match c.rest with
  | [] => (c, some (.placed .eofObject c.peekOffset))
  | x :: _ =>
    if x = '\x7d' then (c.advance, none)
    else if x = ',' then (c, some (.placed .trailingComma c.peekOffset))
    else (c, some (.placed .trailingCharacters c.peekOffset))

/-- What stands between two brackets, with the closing one. A fault without a place gets the place
behind the closing bracket, or where that bracket should stand. -/
def between (ending : Cursor → Cursor × Option Stop) (body : Reader α) : Reader α := fun c =>
  match body c.advance with
  | .ok (a, c) =>
    match ending c with
    | (c, none) => .ok (a, c)
    | (_, some stop) => .error stop
  | .error (.placed reason offset) => .error (.placed reason offset)
  | .error (.unplaced reason c) => .error (.placed reason (ending c).1.offset)

/-- One level of brackets deeper. -/
def deeper (depth : Nat) (r : Nat → Reader α) : Reader α :=
  match depth with
  | 0 => stopAtNext .recursionLimit
  | depth + 1 => r depth

/-- The elements of an array, from its opening bracket. -/
def readList (element : Reader α) : Reader (List α) :=
  between endOfList fun c => elements element (c.rest.length + 1) true c

/-- The members of an object, from its opening bracket. -/
def readObject (member : String → α → Reader α) (start : α) : Reader α :=
  between endOfObject fun c => members member (c.rest.length + 1) true start c

/-- A value of any kind. Those between brackets are read by `inner`, unless no further level of
brackets is allowed. The members of an object come in the order of their keys, and the last value
of a repeated key counts. -/
def valueWithin (inner : Option (Reader Json)) : Reader Json := do
  match ← peekToken with
  | none => stopAtNext .eofValue
  | some 'n' => word ['u', 'l', 'l']; return .null
  | some 't' => word ['r', 'u', 'e']; return .bool true
  | some 'f' => word ['a', 'l', 's', 'e']; return .bool false
  | some '"' => return .string (← readString)
  | some '[' =>
    match inner with
    | none => stopAtNext .recursionLimit
    | some inner => return .array (← readList inner)
  | some '\x7b' =>
    match inner with
    | none => stopAtNext .recursionLimit
    | some inner =>
      let member (key : String) (d : Dictionary Json) : Reader (Dictionary Json) := do
        colon
        return d.insert key (← inner)
      return .object (← readObject member .empty).entries
  | some x =>
    if x = '-' || x.isDigit then return .number (← readNumber) else stopAtNext .expectedValue

/-- A value of any kind with at most this many levels of brackets. -/
def readValue : Nat → Reader Json
  | 0 => valueWithin none
  | depth + 1 => valueWithin (some (readValue depth))

/-- Levels of brackets that a text may have. -/
def maxDepth : Nat := 127

/-- Pass over the elements of an array behind an element, or in front of the first one. -/
def skipElements (element : Reader Unit) : Nat → Bool → Reader Unit
  | 0, _ => return ()
  | n + 1, first => do
    match ← peekToken with
    | none => stopAtNext .eofList
    | some x =>
      if x = ']' then skipChar
      else if first then element; skipElements element n false
      else if x = ',' then skipChar; element; skipElements element n false
      else stopAtNext .expectedListCommaOrEnd

def skipMember (value : Reader Unit) : Reader Unit := do
  match ← peekToken with
  | none => stopAtNext .eofObject
  | some x =>
    if x = '"' then
      skipString
      colon
      value
    else stopAtNext .keyMustBeString

/-- Pass over the members of an object behind a member, or in front of the first one. -/
def skipMembers (value : Reader Unit) : Nat → Bool → Reader Unit
  | 0, _ => return ()
  | n + 1, first => do
    match ← peekToken with
    | none => stopAtNext .eofObject
    | some x =>
      if x = '\x7d' then skipChar
      else if first then skipMember value; skipMembers value n false
      else if x = ',' then skipChar; skipMember value; skipMembers value n false
      else stopAtNext .expectedObjectCommaOrEnd

/-- Pass over a value of any kind, in at most this many steps. -/
def skipValueIn : Nat → Reader Unit
  | 0 => return ()
  | n + 1 => do
    match ← peekToken with
    | none => stopAtNext .eofValue
    | some 'n' => word ['u', 'l', 'l']
    | some 't' => word ['r', 'u', 'e']
    | some 'f' => word ['a', 'l', 's', 'e']
    | some '"' => skipString
    | some '[' => skipChar; skipElements (skipValueIn n) n true
    | some '\x7b' => skipChar; skipMembers (skipValueIn n) n true
    | some x => if x = '-' || x.isDigit then skipNumber else stopAtNext .expectedValue

/-- Pass over a value. Every step takes a character. -/
def skipValue : Reader Unit := fun c => skipValueIn (c.rest.length + 1) c

def endOfText : Reader Unit := do
  match ← peekToken with
  | none => return ()
  | some _ => stopAtNext .trailingCharacters

/-- A whole text read by one reader. -/
def readAll (r : Reader α) (text : String) : Except Fault α :=
  match (r.andThen fun a => endOfText.andThen fun _ => pure a) (.ofText text) with
  | .ok (a, _) => .ok a
  | .error stop => .error (stop.fault text)

def ofText (text : String) : Except Fault Json := readAll (readValue maxDepth) text

end StorageUpgrade.Json
