import StorageUpgrade.Program

/-!
# Entry point

The program runs on a picture of the files that its command line names: the files and directories
themselves, the ignore files on the way to them, and the preferences of the working directory.
-/
namespace StorageUpgrade.Main

/-- Where a path leads, by its names alone. -/
def absolute (working : Location) (path : String) : Location :=
  (Text.splitOn '/' path.toList).foldl (fun l name =>
    let name := String.ofList name
    if name = "" ∨ name = "." then l else if name = ".." then l.dropLast else l ++ [name])
    (if path.toList.head? = some '/' then [] else working)

def pathOf (l : Location) : String := "/" ++ l.spelling

/-- The picture with what is at a location, if there is a file that can be read. -/
def addFile (t : FileTree) (l : Location) : IO FileTree := do
  if t.isFile l then return t
  try
    let bytes ← IO.FS.readBinFile (pathOf l)
    return { t with files := t.files ++ [(l, bytes)] }
  catch _ => return t

/-- The picture with everything at and below a location. Links below it are left out. -/
partial def addAll (t : FileTree) (l : Location) : IO FileTree := do
  try
    let path ← IO.FS.realPath (pathOf l)
    if ← path.isDir then
      let mut t := { t with directories := t.directories ++ [l] }
      for e in ← path.readDir do
        match (← e.path.symlinkMetadata).type with
        | .dir => t ← addAll t (l ++ [e.fileName])
        | .file => t ← addFile t (l ++ [e.fileName])
        | _ => pure ()
      return t
    else addFile t l
  catch _ => return t

/-- The picture with what a path leads to, and with what lies on the way and matters for it. -/
def addPath (t : FileTree) (path : String) : IO FileTree := do
  let l := absolute t.working path
  let mut t := t
  for d in l.parents do
    t ← addFile t d
    for kind in Ignore.kinds do
      t ← addFile t (d ++ kind)
  addAll t l

/-- Paths that a command line names. -/
def pathsOf (args : List String) : List String :=
  match CommandLine.read args with
  | .ok { command := .compare old new .., .. } => [old, new]
  | .ok { command := .batch oldDir newDir .., .. } => [oldDir, newDir]
  | _ => []

def run (args : List String) : IO UInt32 := do
  let working := absolute [] (toString (← IO.currentDir))
  let t ← (Config.fileName :: pathsOf args).foldlM addPath ⟨[], [working], working⟩
  -- A run without an end does not come back to be told.
  let some r := Program.run t args | return 1
  (← IO.getStdout).putStr r.output
  (← IO.getStderr).putStr r.messages
  return r.status

end StorageUpgrade.Main

def main (args : List String) : IO UInt32 := StorageUpgrade.Main.run args
