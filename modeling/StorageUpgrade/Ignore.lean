import StorageUpgrade.FileTree
import StorageUpgrade.Glob.Reader
import StorageUpgrade.Text.Blank

/-!
# Ignored files

A rule is a line of an ignore file and speaks of everything below the directory of the file. The
last rule of a file that matches decides, and the nearest file with such a rule. There are several
kinds of ignore files, and a kind is asked only if those before it are silent.
-/
namespace StorageUpgrade.Ignore

structure Rule where
  glob : Glob
  /-- What matches is kept rather than ignored. -/
  keeps : Bool
  /-- Only directories match. -/
  onlyDirectories : Bool
  deriving DecidableEq

namespace Rule

/-- A spelling with the parts that its place in a rule implies. A spelling without a slash holds at
every depth, and two stars at the end stand for what a directory holds and not for itself. -/
def complete (anchored : Bool) (spelling : List Char) : List Char :=
  let spelling :=
    if anchored ∨ '/' ∈ spelling ∨ spelling = ['*', '*'] then spelling
    else '*' :: '*' :: '/' :: spelling
  if ['/', '*', '*'].isSuffixOf spelling then spelling ++ ['/', '*'] else spelling

/-- A line without the blanks at its end, unless they begin with a space behind a backslash. -/
def trimmed (line : List Char) : List Char :=
  if ['\\', ' '].isSuffixOf line then line else Text.trimEnd line

/-- The marks in front of a rule: an exclamation mark keeps what matches, and a slash ties the rule
to the directory. A backslash takes the meaning from the first mark. -/
def marks : List Char → Bool × Bool × List Char
  | '\\' :: '!' :: cs => (false, false, '!' :: cs)
  | '\\' :: '#' :: cs => (false, false, '#' :: cs)
  | '!' :: '/' :: cs => (true, true, cs)
  | '!' :: cs => (true, false, cs)
  | '/' :: cs => (false, true, cs)
  | cs => (false, false, cs)

/-- A slash at the end, with a backslash in front of it, is a mark of its own. -/
def withoutSlash (cs : List Char) : Bool × List Char :=
  if ['\\', '/'].isSuffixOf cs then (true, cs.dropLast.dropLast)
  else if ['/'].isSuffixOf cs then (true, cs.dropLast)
  else (false, cs)

/-- The rule of a line. There is none in a comment, an empty line, or a line with a fault. -/
def ofLine? (lenient : Bool) (line : List Char) : Option Rule :=
  if line.head? = some '#' then none
  else
    let line := trimmed line
    if line.isEmpty then none
    else do
      let (keeps, anchored, spelling) := marks line
      let (onlyDirectories, spelling) := withoutSlash spelling
      return { glob := ← Glob.ofText? lenient (complete anchored spelling), keeps, onlyDirectories }

/-- The rule matches what is at a location, counted from its directory. -/
def holds (r : Rule) (l : Location) (directory : Bool) : Bool :=
  (directory || !r.onlyDirectories) && r.glob.accepts l.spelling

end Rule

/-- Verdict of some rules on what is at a location: ignored, kept, or nothing at all. -/
def verdict? (rules : List Rule) (l : Location) (directory : Bool) : Option Bool :=
  (rules.reverse.find? fun r => r.holds l directory).map fun r => !r.keeps

/-- Rules that speak of what is below a directory. -/
structure RuleFile where
  directory : Location
  rules : List Rule

/-- Lines of a file, without their line ends. -/
def linesOf : List UInt8 → List (List UInt8)
  | [] => []
  | b :: bs =>
    if b = 0x0a then [] :: linesOf bs
    else
      match linesOf bs with
      | [] => [[b]]
      | line :: lines =>
        if b = 0x0d ∧ line.isEmpty ∧ bs.head? = some 0x0a then line :: lines
        else (b :: line) :: lines

/-- Lines as texts, up to the first one that is not a text. -/
def textsOf (lines : List (List UInt8)) : List (List Char) :=
  ((lines.map fun bs => String.fromUTF8? ⟨bs.toArray⟩).takeWhile Option.isSome).filterMap
    fun s => s.map String.toList

def withoutMarks (cs : List Char) : List Char := cs.dropWhile (· = '\ufeff')

def rulesOf (bytes : ByteArray) : List Rule :=
  match textsOf (linesOf bytes.toList) with
  | [] => []
  | first :: rest => (withoutMarks first :: rest).filterMap (Rule.ofLine? true)

/-- Where the kinds of ignore files are, from the directory they speak of. The ignore file that a
user may keep for all repositories lies outside of the tree and is left out. It would be asked after
these. -/
def kinds : List Location := [
  [".deltaignore"], [".ignore"], [".gitignore"], [".git", "info", "exclude"]]

def ruleFiles (t : FileTree) (kind : Location) : List RuleFile :=
  t.files.filterMap fun f =>
    if kind.isSuffixOf f.1 then
      some ⟨f.1.take (f.1.length - kind.length), rulesOf f.2⟩
    else none

/-- Verdict of the ignore files of a kind on what is at a location. -/
def verdictOf? (files : List RuleFile) (l : Location) (directory : Bool) : Option Bool :=
  l.parents.findSome? fun d => do
    let file ← files.find? fun f => f.directory = d
    verdict? file.rules (l.drop d.length) directory

/-- The rules of patterns that exclude what matches. A pattern with a fault excludes nothing. -/
def exclusions (patterns : List String) : List Rule :=
  patterns.filterMap fun p => Rule.ofLine? false ('!' :: p.toList)

/-- What there is to know about ignored files below a directory. -/
structure Book where
  root : Location
  /-- Rules of the patterns that speak of what is below the root. -/
  exclusions : List Rule
  /-- The ignore files of each kind. -/
  files : List (List RuleFile)

namespace Book

/-- The rules that count below a directory, with patterns of files to be excluded. -/
def ofTree (t : FileTree) (root : Location) (patterns : List String) : Book :=
  ⟨root, Ignore.exclusions patterns, kinds.map (ruleFiles t)⟩

/-- A file or a directory is ignored for its own sake. The location is counted from the root. -/
def ignores (b : Book) (l : Location) (directory : Bool) : Bool :=
  b.exclusions.any (·.holds l directory) ||
    (b.files.findSome? fun fs => verdictOf? fs (b.root ++ l) directory).getD false

/-- A file is reached: neither it nor a directory on the way from the root is ignored. -/
def reaches (b : Book) (l : Location) : Bool :=
  !b.ignores l false && l.parents.all fun d => d.isEmpty || !b.ignores d true

end Book

/-- The files below a directory that are not ignored. -/
def walk (t : FileTree) (root : Location) (patterns : List String) : List Location :=
  (t.filesBelow root).filter (Book.ofTree t root patterns).reaches

end StorageUpgrade.Ignore
