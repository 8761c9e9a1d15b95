import StorageUpgrade.Error
import StorageUpgrade.Text.Lines

/-!
# File trees

Files with their bytes, each at a location below one root. A path is spelled out of names with
slashes between them and starts from the root or from the working directory.
-/
namespace StorageUpgrade

/-- Names that lead from the root to a file or directory. -/
abbrev Location := List String

namespace Location

/-- The directories on the way to a location, the nearest one first. -/
def parents (l : Location) : List Location := (List.range l.length).reverse.map fun n => l.take n

/-- What is left of a location below a directory. -/
def below? (directory l : Location) : Option Location :=
  if directory.isPrefixOf l ∧ directory.length < l.length then some (l.drop directory.length)
  else none

def spelling (l : Location) : String := Text.join "/" l

end Location

/-- Files, directories that need not hold any of them, and the directory where relative paths
start. -/
structure FileTree where
  files : List (Location × ByteArray)
  directories : List Location
  working : Location

namespace FileTree

def content? (t : FileTree) (l : Location) : Option ByteArray :=
  (t.files.find? fun f => f.1 = l).map (·.2)

def isFile (t : FileTree) (l : Location) : Bool := (t.content? l).isSome

/-- There is a directory at the location: the root, a listed one, or one on the way to anything. -/
def isDirectory (t : FileTree) (l : Location) : Bool :=
  l.isEmpty || t.directories.any (l.isPrefixOf ·) ||
    t.files.any fun f => l.isPrefixOf f.1 && l.length < f.1.length

/-- Where a name leads from a directory. -/
def enter (t : FileTree) (l : Location) (name : String) : Except ReadFault Location :=
  if t.isDirectory l then
    .ok (if name = "" ∨ name = "." then l else if name = ".." then l.dropLast else l ++ [name])
  else .error (if t.isFile l then .notDirectory else .notFound)

/-- Where a path leads. There need not be anything. -/
def locate (t : FileTree) (path : String) : Except ReadFault Location :=
  let start := if path.toList.head? = some '/' then [] else t.working
  if path.isEmpty then .error .notFound
  else (Text.splitOn '/' path.toList).foldlM (fun l name => t.enter l (String.ofList name)) start

def holdsDirectory (t : FileTree) (path : String) : Bool :=
  match t.locate path with
  | .ok l => t.isDirectory l
  | .error _ => false

def read (t : FileTree) (path : String) : Except ReadFault String := do
  let l ← t.locate path
  match t.content? l with
  | some bytes =>
    match String.fromUTF8? bytes with
    | some text => return text
    | none => .error .notText
  | none => .error (if t.isDirectory l then .isDirectory else .notFound)

/-- Locations of the files below a directory, from there. -/
def filesBelow (t : FileTree) (directory : Location) : List Location :=
  t.files.filterMap fun f => Location.below? directory f.1

end FileTree

end StorageUpgrade
