import StorageUpgrade.Glob

/-!
# Spelling of globs

A question mark stands for a byte and a star for any number of them, slashes excepted. Two stars
between slashes stand for any directories. Brackets hold the characters of a class, braces hold
alternatives, and a backslash takes its meaning from the next character.
-/
namespace StorageUpgrade.Glob

inductive Piece where
  | literal (c : Char)
  | any
  | star
  /-- Two stars in front: nothing, or directories. -/
  | leading
  /-- Two stars at the end: everything below. -/
  | trailing
  /-- Two stars in between: a slash, or directories. -/
  | between
  | among (negated : Bool) (ranges : List (Char × Char))
  | choice (branches : List Glob)

def charBytes (c : Char) : List UInt8 := (String.singleton c).toUTF8.toList

/-- Ranges of bytes for a range of characters. Of a character with several bytes each one counts by
itself. -/
def byteRanges (first last : Char) : List (UInt8 × UInt8) :=
  let same (b : UInt8) := (b, b)
  if first = last then (charBytes first).map same
  else
    match (charBytes first).getLast?, charBytes last with
    | some low, high :: rest =>
      (charBytes first).dropLast.map same ++ (low, high) :: rest.map same
    | _, _ => []

def anything : Glob := run .all

def Piece.glob : Piece → Glob
  | literal c => bytes (charBytes c)
  | any => one .withinName
  | star => run .withinName
  | leading => either (either nothing slash) (both anything slash)
  | trailing => both slash anything
  | between => either slash (both slash (both anything slash))
  | among negated ranges => one ⟨negated, ranges.flatMap fun r => byteRanges r.1 r.2⟩
  | choice [] => nothing
  | choice (g :: gs) => gs.foldl either g

def ofPieces (pieces : List Piece) : Glob := sequence (pieces.map Piece.glob)

/-- The piece stands for nothing, and so does not make a branch. -/
def Piece.isVoid : Piece → Bool
  | choice [] => true
  | _ => false

/-- The alternatives among some branches, the void ones left out. -/
def choiceOf (branches : List (List Piece)) : Piece :=
  .choice ((branches.filter fun b => !b.all Piece.isVoid).map ofPieces)

inductive ClassEnd where
  | closed (ranges : List (Char × Char)) (rest : List Char)
  | unclosed
  | backwards

/-- Reads the members of a class: `fresh` at the first one, `inRange` behind the hyphen of a range.
The ranges come with the last one in front. -/
def classEnd (fresh inRange : Bool) (ranges : List (Char × Char)) : List Char → ClassEnd
  | [] => .unclosed
  | c :: cs =>
    if c = ']' ∧ !fresh then
      .closed (if inRange then ('-', '-') :: ranges else ranges).reverse cs
    else if c = '-' ∧ !fresh ∧ !inRange then classEnd false true ranges cs
    else
      match inRange, ranges with
      | true, (first, _) :: ranges =>
        if c.toNat < first.toNat then .backwards
        else classEnd false false ((first, c) :: ranges) cs
      | _, _ => classEnd false false ((c, c) :: ranges) cs

/-- A state of reading: the pieces of the current branch and its finished neighbours, and the
branches around them. The last piece comes in front. -/
structure Reading where
  pieces : List Piece := []
  neighbours : List (List Piece) := []
  around : List (List Piece × List (List Piece)) := []
  /-- A class was not closed, so that a bracket has no meaning any more. -/
  bracketsAreLiteral : Bool := false

namespace Reading

def push (r : Reading) (p : Piece) : Reading := { r with pieces := p :: r.pieces }

def opened (r : Reading) : Reading :=
  { r with pieces := [], neighbours := [], around := (r.pieces, r.neighbours) :: r.around }

/-- The next alternative begins, or the comma stands for itself. -/
def comma (r : Reading) : Reading :=
  if r.around.isEmpty then r.push (.literal ',')
  else { r with pieces := [], neighbours := r.pieces.reverse :: r.neighbours }

def closed (r : Reading) : Option Reading :=
  match r.around with
  | [] => none
  | (pieces, neighbours) :: around =>
    let p := choiceOf (r.pieces.reverse :: r.neighbours).reverse
    some { r with pieces := p :: pieces, neighbours, around }

/-- Two stars that stand for directories, in place of the piece in front of them. -/
def deep (r : Reading) (atEnd : Bool) : Reading :=
  match r.pieces with
  | .leading :: _ => r
  | .trailing :: _ => r
  | _ :: pieces => { r with pieces := (if atEnd then .trailing else .between) :: pieces }
  | [] => r

/-- Two stars, behind the character `before` and in front of the given text. What comes next is the
text, without a slash that belongs to the stars. -/
def twoStars (r : Reading) (before : Option Char) (cs : List Char) : Reading × List Char :=
  let plain := ((r.push .star).push .star, cs)
  let inside := !r.around.isEmpty
  if r.pieces.isEmpty then
    match cs with
    | [] => (r.push .leading, [])
    | '/' :: cs => (r.push .leading, cs)
    | _ => plain
  else if before = some '/' ∨ (inside ∧ (before = some ',' ∨ before = some '\x7b')) then
    match cs with
    | [] => (r.deep true, [])
    | '/' :: cs => (r.deep false, cs)
    | c :: _ => if inside ∧ (c = ',' ∨ c = '\x7d') then (r.deep true, cs) else plain
  else plain

end Reading

/-- Reads the pieces of a text, in at most so many steps. A class may be left unclosed if `lenient`
is set, and then its bracket stands for itself. -/
def readPieces (lenient : Bool) : Nat → Option Char → List Char → Reading → Option (List Piece)
  | 0, _, _, _ => none
  | _ + 1, _, [], r => if r.around.isEmpty then some r.pieces.reverse else none
  | n + 1, before, c :: cs, r =>
    let on := readPieces lenient n
    match c with
    | '?' => on (some c) cs (r.push .any)
    | '*' =>
      match cs with
      | '*' :: cs =>
        let (s, rest) := r.twoStars before cs
        on (if rest.length < cs.length then some '/' else some '*') rest s
      | _ => on (some c) cs (r.push .star)
    | '[' =>
      if r.bracketsAreLiteral then on (some c) cs (r.push (.literal c))
      else
        let negated := cs.head? = some '!' || cs.head? = some '^'
        match classEnd true false [] (if negated then cs.drop 1 else cs) with
        | .closed ranges rest => on (some ']') rest (r.push (.among negated ranges))
        | .backwards => none
        | .unclosed =>
          if lenient then on (some c) cs { r.push (.literal c) with bracketsAreLiteral := true }
          else none
    | '\x7b' => on (some c) cs r.opened
    | '\x7d' => do on (some c) cs (← r.closed)
    | ',' => on (some c) cs r.comma
    | '\\' =>
      match cs with
      | [] => none
      | c :: cs => on (some c) cs (r.push (.literal c))
    | c => on (some c) cs (r.push (.literal c))

/-- The glob of a spelling. Two stars alone stand for everything. -/
def ofText? (lenient : Bool) (text : List Char) : Option Glob := do
  match ← readPieces lenient (text.length + 1) none text {} with
  | [.leading] => return anything
  | pieces => return ofPieces pieces

end StorageUpgrade.Glob
