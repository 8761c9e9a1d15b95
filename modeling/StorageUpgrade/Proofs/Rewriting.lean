import Mathlib.Data.List.Basic
import StorageUpgrade.Pairing

/-!
# Other contents in a file

What a file holds matters to those who read it. The places of files and directories stay when a file
gets other contents, and so does the search for layout files, unless it is an ignore file whose
contents change.
-/
namespace StorageUpgrade

/-- The tree with other contents in the file at a location. -/
def FileTree.rewrite (t : FileTree) (l : Location) (bytes : ByteArray) : FileTree :=
  { t with files := t.files.map fun f => (f.1, if f.1 = l then bytes else f.2) }

variable (t : FileTree) (l : Location) (bytes : ByteArray) {m : Location} {path : String}

namespace FileTree

theorem find?_rewrite :
    ((t.rewrite l bytes).files.find? fun f => f.1 = m) =
      (t.files.find? fun f => f.1 = m).map fun f => (f.1, if f.1 = l then bytes else f.2) :=
  List.find?_map

theorem content?_rewrite (h : m ≠ l) : (t.rewrite l bytes).content? m = t.content? m := by
  rw [content?, content?, find?_rewrite, Option.map_map]
  refine Option.map_congr fun f hf => ?_
  have hm : f.1 = m := by simpa using List.find?_some hf
  exact if_neg (hm ▸ h)

@[simp] theorem isFile_rewrite : (t.rewrite l bytes).isFile m = t.isFile m := by
  simp only [isFile, content?, find?_rewrite, Option.isSome_map]

@[simp] theorem isDirectory_rewrite : (t.rewrite l bytes).isDirectory m = t.isDirectory m := by
  simp only [isDirectory, rewrite, List.any_map, Function.comp_def]

@[simp] theorem locate_rewrite : (t.rewrite l bytes).locate path = t.locate path := by
  have henter : (t.rewrite l bytes).enter = t.enter := by
    funext m name
    simp only [enter, isDirectory_rewrite, isFile_rewrite]
  simp only [locate, henter]
  rfl

/-- A path that leads elsewhere is read as before. -/
theorem read_rewrite (h : t.locate path ≠ .ok l) : (t.rewrite l bytes).read path = t.read path := by
  rw [read, read, locate_rewrite]
  cases hm : t.locate path with
  | error e => rfl
  | ok m =>
    have hne : m ≠ l := fun heq => h (heq ▸ hm)
    simp only [bind, Except.bind, content?_rewrite t l bytes hne, isDirectory_rewrite]

@[simp] theorem filesBelow_rewrite : (t.rewrite l bytes).filesBelow m = t.filesBelow m := by
  simp only [filesBelow, rewrite, List.filterMap_map, Function.comp_def]

end FileTree

/-- There is an ignore file at the location, if there is a file. -/
def Ignore.IsRuleLocation (l : Location) : Prop := ∃ kind ∈ Ignore.kinds, kind <:+ l

variable {l}

theorem Ignore.ruleFiles_rewrite {kind : Location} (h : ¬ kind <:+ l) :
    ruleFiles (t.rewrite l bytes) kind = ruleFiles t kind := by
  simp only [ruleFiles, FileTree.rewrite, List.filterMap_map]
  refine List.filterMap_congr fun f _ => ?_
  by_cases hf : f.1 = l
  · have hkind : ¬ kind.isSuffixOf f.1 = true := by rwa [List.isSuffixOf_iff_suffix, hf]
    simp only [Function.comp_apply, if_neg hkind]
  · simp only [Function.comp_apply, if_neg hf]

theorem Ignore.walk_rewrite (h : ¬ IsRuleLocation l) (root : Location) (patterns : List String) :
    walk (t.rewrite l bytes) root patterns = walk t root patterns := by
  have hfiles : kinds.map (ruleFiles (t.rewrite l bytes)) = kinds.map (ruleFiles t) :=
    List.map_congr_left fun kind hkind => ruleFiles_rewrite t bytes fun hl => h ⟨kind, hkind, hl⟩
  simp only [walk, FileTree.filesBelow_rewrite, Book.ofTree, hfiles]

/-- Contents of other than ignore files have no influence on which files are compared. -/
theorem Pairing.ofDirectories_rewrite (h : ¬ Ignore.IsRuleLocation l) (oldDir newDir : String)
    (extensions : Option (List String)) (patterns : List String) :
    ofDirectories (t.rewrite l bytes) oldDir newDir extensions patterns =
      ofDirectories t oldDir newDir extensions patterns := by
  have hfiles : ∀ directory, filesIn (t.rewrite l bytes) directory patterns =
      filesIn t directory patterns := by
    intro directory
    simp only [filesIn, FileTree.locate_rewrite, FileTree.isDirectory_rewrite,
      Ignore.walk_rewrite t bytes h]
  simp only [ofDirectories, hfiles]

theorem FilePair.loadSide_rewrite {side : Option String}
    (h : ∀ path ∈ side, t.locate path ≠ .ok l) :
    loadSide (t.rewrite l bytes) side = loadSide t side := by
  cases side with
  | none => rfl
  | some path => simp only [loadSide, FileTree.read_rewrite t l bytes (h path rfl)]

end StorageUpgrade
