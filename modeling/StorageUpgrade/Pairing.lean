import StorageUpgrade.Comparison
import StorageUpgrade.Dictionary
import StorageUpgrade.Ignore
import StorageUpgrade.Text.Lowercase

/-!
# Layout files in pairs

The layout files of an old and of a new directory belong together when they lie at the same place.
A file without a counterpart makes a pair with nothing.
-/
namespace StorageUpgrade

/-- A file that was found in a directory: its path from there, and a path that leads to it. -/
structure FoundFile where
  key : String
  path : String
  deriving DecidableEq

/-- What lies at one place in two directories. -/
structure FilePair where
  key : String
  old : Option String := none
  new : Option String := none
  deriving DecidableEq

/-- Pairs in the order of their keys, and the number of files that are not layout files. -/
structure Pairing where
  pairs : List FilePair
  skipped : Nat
  deriving DecidableEq

/-- Extension of a file name: what follows its last period, unless only this period precedes it. -/
def extension? (name : List Char) : Option (List Char) :=
  match Text.splitOn '.' name with
  | [] | [_] | [[], _] => none
  | pieces => pieces.getLast?

/-- An extension without periods in front, in small letters. -/
def plainExtension (e : String) : String :=
  Text.lowercase (String.ofList (e.toList.dropWhile (· = '.')))

/-- The file has one of the extensions, or there is no choice of extensions. -/
def isLayoutFile (extensions : Option (List String)) (key : String) : Bool :=
  match extensions with
  | none => true
  | some es =>
    match extension? ((Text.splitOn '/' key.toList).getLastD []) with
    | none => false
    | some e => (es.map plainExtension).contains (Text.lowercase (String.ofList e))

namespace Pairing

/-- The pair under a key changed, or a new one put there. -/
def update (d : Dictionary FilePair) (key : String) (change : FilePair → FilePair) :
    Dictionary FilePair :=
  d.insert key (change ((d.find? key).getD { key }))

/-- The layout files among those found in the two directories, in pairs. -/
def ofFiles (extensions : Option (List String)) (old new : List FoundFile) : Pairing :=
  let accepted (fs : List FoundFile) := fs.filter fun f => isLayoutFile extensions f.key
  let left := (accepted old).foldl
    (fun d f => update d f.key fun p => { p with old := some f.path }) Dictionary.empty
  let both := (accepted new).foldl
    (fun d f => update d f.key fun p => { p with new := some f.path }) left
  { pairs := both.entries.map (·.2)
    skipped := (old.filter fun f => !isLayoutFile extensions f.key).length +
      (new.filter fun f => !isLayoutFile extensions f.key).length }

def joined (directory key : String) : String :=
  if ['/'].isSuffixOf directory.toList then directory ++ key else directory ++ "/" ++ key

/-- The files of a directory that are not ignored. -/
def filesIn (t : FileTree) (directory : String) (patterns : List String) :
    Except Error (List FoundFile) :=
  match t.locate directory with
  | .ok l =>
    if t.isDirectory l then
      .ok ((Ignore.walk t l patterns).map fun f => ⟨f.spelling, joined directory f.spelling⟩)
    else .error (.scanRootMissing directory)
  | .error _ => .error (.scanRootMissing directory)

/-- The layout files of two directories, in pairs. -/
def ofDirectories (t : FileTree) (oldDir newDir : String) (extensions : Option (List String))
    (patterns : List String) : Except Error Pairing := do
  let old ← filesIn t oldDir patterns
  let new ← filesIn t newDir patterns
  return ofFiles extensions old new

end Pairing

namespace FilePair

def isMatched (p : FilePair) : Bool := p.old.isSome && p.new.isSome

/-- The document of a side. The side that is missing has an empty one. -/
def loadSide (t : FileTree) : Option String → Except Error Document
  | none => .ok .empty
  | some path => do
    let text ← (t.read path).mapError .unreadable
    (Document.ofText text).mapError .json

def load (t : FileTree) (p : FilePair) : Except Error NamedPair := do
  let old ← loadSide t p.old
  let new ← loadSide t p.new
  return ⟨p.key, old, new⟩

end FilePair

end StorageUpgrade
