import StorageUpgrade.Json.Fault

/-!
# Reading JSON texts from the left

A reader takes what it needs off the front of a text and leaves the rest, or stops with a reason.
A cursor is the rest of the text with the number of bytes read so far.

Some faults are found only after the value has been read. They carry the cursor where they arose,
and the innermost object or array around them gives them their place, once it has looked for its
own closing bracket.
-/
namespace StorageUpgrade.Json

/-- The rest of a text, behind this number of bytes. -/
structure Cursor where
  rest : List Char
  offset : Nat

namespace Cursor

def ofText (s : String) : Cursor := ⟨s.toList, 0⟩

def advance (c : Cursor) : Cursor :=
  match c.rest with
  | [] => c
  | x :: xs => ⟨xs, c.offset + x.utf8Size⟩

/-- The cursor behind the first characters that pass the test. -/
def skipWhile (test : Char → Bool) (c : Cursor) : Cursor :=
  go c.rest c.offset
where
  go : List Char → Nat → Cursor
    | [], offset => ⟨[], offset⟩
    | x :: xs, offset =>
      if test x then go xs (offset + x.utf8Size) else ⟨x :: xs, offset⟩

def isBlank (x : Char) : Bool := x = ' ' || x = '\n' || x = '\t' || x = '\r'

def skipBlanks (c : Cursor) : Cursor := c.skipWhile isBlank

/-- Offset behind the next byte, or at the end of the text. -/
def peekOffset (c : Cursor) : Nat := if c.rest.isEmpty then c.offset else c.offset + 1

/-- Offset behind this many bytes of the rest, or at its end. -/
def offsetAfter (c : Cursor) (bytes : Nat) : Nat :=
  c.offset + (if bytes ≤ total c.rest then bytes else total c.rest)
where
  total : List Char → Nat
    | [] => 0
    | x :: xs => x.utf8Size + total xs

end Cursor

/-- A reading that failed, at an offset or, so far, only at a cursor. -/
inductive Stop where
  | placed (reason : Reason) (offset : Nat)
  | unplaced (reason : Reason) (cursor : Cursor)

def Stop.fault (text : String) : Stop → Fault
  | placed reason offset => ⟨reason, some (Place.advance ⟨1, 0⟩ offset text.toList)⟩
  | unplaced reason _ => ⟨reason, none⟩

/-- Takes a value off the front of a text. -/
def Reader (α : Type) := Cursor → Except Stop (α × Cursor)

namespace Reader

variable {α β : Type}

def andThen (r : Reader α) (f : α → Reader β) : Reader β := fun c =>
  match r c with
  | .ok (a, c) => f a c
  | .error e => .error e

instance : Monad Reader where
  pure a := fun c => .ok (a, c)
  bind := andThen

def here : Reader Cursor := fun c => .ok (c, c)

/-- The reading goes on at another cursor. -/
def goTo (c : Cursor) : Reader Unit := fun _ => .ok ((), c)

/-- Stop at the byte behind the cursor, or at the end of the text. -/
def stopAtNext (reason : Reason) : Reader α := fun c => .error (.placed reason c.peekOffset)

def stopHere (reason : Reason) : Reader α := fun c => .error (.placed reason c.offset)

/-- Stop behind this many more bytes, or at the end of the text. -/
def stopAfter (bytes : Nat) (reason : Reason) : Reader α := fun c =>
  .error (.placed reason (c.offsetAfter bytes))

/-- Stop, and let the enclosing object or array say where. -/
def stopUnplaced (reason : Reason) : Reader α := fun c => .error (.unplaced reason c)

/-- Next character, left in place. -/
def peek : Reader (Option Char) := fun c => .ok (c.rest.head?, c)

/-- Next character behind the blanks, left in place. The blanks are taken. -/
def peekToken : Reader (Option Char) := fun c =>
  let c := c.skipBlanks
  .ok (c.rest.head?, c)

def skipChar : Reader Unit := fun c => .ok ((), c.advance)

/-- The characters that pass the test, taken. -/
def takeWhile (test : Char → Bool) : Reader (List Char) := fun c =>
  .ok (c.rest.takeWhile test, c.skipWhile test)

end Reader

end StorageUpgrade.Json
