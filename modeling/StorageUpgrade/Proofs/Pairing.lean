import Mathlib.Data.List.Nodup
import StorageUpgrade.Proofs.Batch
import StorageUpgrade.Proofs.Pieces

/-!
# Two directories, pair by pair

The files of one directory and then those of the other are put into one dictionary. What it holds in
the end does not depend on the order in which the files were found, and nothing gets lost.
-/
namespace StorageUpgrade

variable {cs front last : List Char}

/-- The name at the end of a path. -/
def IsFileName (path name : List Char) : Prop :=
  '/' ∉ name ∧ (path = name ∨ ∃ directory, path = directory ++ '/' :: name)

/-- What follows the last period of a name, unless nothing stands in front of it. -/
def IsExtension (name ext : List Char) : Prop :=
  '.' ∉ ext ∧ ∃ stem, stem ≠ [] ∧ name = stem ++ '.' :: ext

/-- The file has one of the extensions asked for, if any are. Capital and small letters are the
same, and so is an extension with periods in front. -/
def IsChosen (extensions : Option (List String)) (key : String) : Prop :=
  ∀ es ∈ extensions, ∃ name ext, IsFileName key.toList name ∧ IsExtension name ext ∧
    ∃ e ∈ es, plainExtension e = Text.lowercase (String.ofList ext)

theorem isFileName_iff {path name : List Char} :
    IsFileName path name ↔ (Text.splitOn '/' path).getLastD [] = name := by
  constructor
  · rintro ⟨hname, rfl | ⟨directory, rfl⟩⟩
    · rw [Text.splitOn_of_not_mem hname]
      rfl
    · rw [Text.splitOn_append hname]
      simp
  · rintro rfl
    by_cases h : '/' ∈ path
    · obtain ⟨front, last, rfl, hlast⟩ := Text.exists_last_of_mem h
      rw [Text.splitOn_append hlast]
      simpa [IsFileName] using hlast
    · rw [Text.splitOn_of_not_mem h]
      exact ⟨h, .inl rfl⟩

theorem extension?_of_not_mem (h : '.' ∉ cs) : extension? cs = none := by
  rw [extension?, Text.splitOn_of_not_mem h]

theorem extension?_append (h : '.' ∉ last) :
    extension? (front ++ '.' :: last) = if front = [] then none else some last := by
  rw [extension?, Text.splitOn_append h]
  split_ifs with hfront
  · subst hfront
    rfl
  · have hjoined : ['.'].intercalate (Text.splitOn '.' front) = front := by
      rw [Text.splitOn_eq, List.intercalate_splitOn]
    match hpieces : Text.splitOn '.' front with
    | [] | [[]] =>
      rw [hpieces] at hjoined
      exact absurd hjoined.symm hfront
    | [c :: cs] => rfl
    | p :: q :: ps => simp [List.getLast?_cons]

theorem isExtension_iff {name ext : List Char} :
    IsExtension name ext ↔ extension? name = some ext := by
  constructor
  · rintro ⟨hext, stem, hstem, rfl⟩
    rw [extension?_append hext, if_neg hstem]
  · intro h
    by_cases hdot : '.' ∈ name
    · obtain ⟨front, last, rfl, hlast⟩ := Text.exists_last_of_mem hdot
      rw [extension?_append hlast] at h
      split_ifs at h with hfront
      obtain rfl := Option.some.inj h
      exact ⟨hlast, front, hfront, rfl⟩
    · rw [extension?_of_not_mem hdot] at h
      cases h

theorem isLayoutFile_iff {extensions : Option (List String)} {key : String} :
    isLayoutFile extensions key = true ↔ IsChosen extensions key := by
  cases extensions with
  | none => simp [isLayoutFile, IsChosen]
  | some es =>
    simp only [isLayoutFile, IsChosen, isFileName_iff, isExtension_iff, Option.mem_some_iff,
      forall_eq']
    generalize (Text.splitOn '/' key.toList).getLastD [] = name
    cases h : extension? name with
    | none => simp [h]
    | some ext => simp [h]

namespace Pairing

variable {extensions : Option (List String)} {fs old new : List FoundFile} {key path : String}

/-- The path of the file with a key, if it was found and has one of the extensions. -/
def chosenPath? (extensions : Option (List String)) (fs : List FoundFile) (key : String) :
    Option String :=
  ((fs.filter fun f => isLayoutFile extensions f.key).find? fun f => f.key = key).map
    FoundFile.path

theorem isSome_chosenPath?_iff : (chosenPath? extensions fs key).isSome ↔
    IsChosen extensions key ∧ key ∈ fs.map FoundFile.key := by
  simp only [chosenPath?, Option.isSome_map, List.find?_isSome, List.mem_filter,
    isLayoutFile_iff, decide_eq_true_eq, List.mem_map]
  constructor
  · rintro ⟨f, ⟨hf, hchosen⟩, rfl⟩
    exact ⟨hchosen, f, hf, rfl⟩
  · rintro ⟨hchosen, f, hf, rfl⟩
    exact ⟨f, ⟨hf, hchosen⟩, rfl⟩

theorem of_chosenPath?_eq_some (h : chosenPath? extensions fs key = some path) :
    ⟨key, path⟩ ∈ fs ∧ IsChosen extensions key := by
  obtain ⟨f, hf, rfl⟩ := Option.map_eq_some_iff.1 h
  obtain rfl : f.key = key := by simpa using List.find?_some hf
  have hmem := List.mem_filter.1 (List.mem_of_find?_eq_some hf)
  exact ⟨hmem.1, isLayoutFile_iff.1 hmem.2⟩

theorem chosenPath?_eq_some_iff (hnodup : (fs.map FoundFile.key).Nodup) :
    chosenPath? extensions fs key = some path ↔ ⟨key, path⟩ ∈ fs ∧ IsChosen extensions key := by
  constructor
  · exact of_chosenPath?_eq_some
  · intro ⟨hmem, hchosen⟩
    obtain ⟨other, hother⟩ := Option.isSome_iff_exists.1
      (isSome_chosenPath?_iff.2 ⟨hchosen, List.mem_map_of_mem hmem⟩)
    have hsame := List.inj_on_of_nodup_map hnodup (of_chosenPath?_eq_some hother).1 hmem rfl
    rw [hother, (FoundFile.mk.inj hsame).2]

variable {d : Dictionary FilePair} {change : FoundFile → FilePair → FilePair}

/-- Files with different keys change a pair once at most. -/
theorem find?_foldl_update (hnodup : (fs.map FoundFile.key).Nodup) :
    (fs.foldl (fun d f => update d f.key (change f)) d).find? key =
      match fs.find? fun f => f.key = key with
      | some f => some (change f ((d.find? key).getD { key }))
      | none => d.find? key := by
  induction fs generalizing d with
  | nil => rfl
  | cons f fs ih =>
    rw [List.map_cons, List.nodup_cons] at hnodup
    rw [List.foldl_cons, ih hnodup.2, update, Dictionary.find?_insert, List.find?_cons]
    by_cases hkey : f.key = key
    · subst hkey
      have hnone : fs.find? (fun g => g.key = f.key) = none := by
        apply List.find?_eq_none.2
        intro g hg heq
        exact hnodup.1 (List.mem_map.2 ⟨g, hg, of_decide_eq_true heq⟩)
      simp [hnone]
    · simp [hkey]

theorem nodup_map_filter {α β : Type} {f : α → β} {l : List α} (h : (l.map f).Nodup)
    (accepts : α → Bool) : ((l.filter accepts).map f).Nodup :=
  h.sublist (List.filter_sublist.map f)

/-- The pairs are those of a dictionary that has both paths of a key under it. -/
theorem exists_dictionary (extensions : Option (List String)) (hold : (old.map FoundFile.key).Nodup)
    (hnew : (new.map FoundFile.key).Nodup) :
    ∃ d, (ofFiles extensions old new).pairs = d.entries.map (·.2) ∧ Keyed d ∧
      ∀ key, d.find? key =
        match chosenPath? extensions old key, chosenPath? extensions new key with
        | none, none => none
        | left, right => some ⟨key, left, right⟩ := by
  refine ⟨_, rfl, keyed_foldl_update (keyed_foldl_update ?_ ?_ _) ?_ _, ?_⟩
  · exact fun _ he => nomatch he
  · exact fun _ _ => rfl
  · exact fun _ _ => rfl
  · intro key
    rw [find?_foldl_update (nodup_map_filter hnew _),
      find?_foldl_update (nodup_map_filter hold _), Dictionary.find?_empty]
    simp only [chosenPath?]
    cases (old.filter fun f => isLayoutFile extensions f.key).find? fun f => f.key = key <;>
      cases (new.filter fun f => isLayoutFile extensions f.key).find? fun f => f.key = key <;> rfl

/-- A pair is what the two directories have under its key, if this is anything. -/
theorem mem_pairs_iff (hold : (old.map FoundFile.key).Nodup) (hnew : (new.map FoundFile.key).Nodup)
    {q : FilePair} : q ∈ (ofFiles extensions old new).pairs ↔
      q.old = chosenPath? extensions old q.key ∧ q.new = chosenPath? extensions new q.key ∧
        (q.old.isSome ∨ q.new.isSome) := by
  obtain ⟨d, hpairs, hkeyed, hfind⟩ := exists_dictionary extensions hold hnew
  have hmem : q ∈ d.entries.map (·.2) ↔ d.find? q.key = some q := by
    constructor
    · intro hq
      obtain ⟨e, he, rfl⟩ := List.mem_map.1 hq
      rw [hkeyed e he]
      exact Dictionary.find?_of_mem he
    · intro hq
      exact List.mem_map_of_mem (Dictionary.mem_of_find? hq)
  obtain ⟨key, left, right⟩ := q
  rw [hpairs, hmem, hfind]
  cases chosenPath? extensions old key <;> cases chosenPath? extensions new key <;> grind

/-- The pairs of two directories in ascending order. A side of a pair is the file that was found in
the directory under the key, provided it has one of the extensions. -/
structure PairsUp (extensions : Option (List String)) (old new : List FoundFile) (p : Pairing) :
    Prop where
  ascending : p.pairs.Pairwise fun a b => Text.before a.key b.key = true
  mem_keys_iff : ∀ key, key ∈ p.pairs.map FilePair.key ↔
    IsChosen extensions key ∧ (key ∈ old.map FoundFile.key ∨ key ∈ new.map FoundFile.key)
  old_eq_iff : ∀ q ∈ p.pairs, ∀ path,
    q.old = some path ↔ ⟨q.key, path⟩ ∈ old ∧ IsChosen extensions q.key
  new_eq_iff : ∀ q ∈ p.pairs, ∀ path,
    q.new = some path ↔ ⟨q.key, path⟩ ∈ new ∧ IsChosen extensions q.key
  occupied : ∀ q ∈ p.pairs, q.old.isSome ∨ q.new.isSome
  /-- Every file is skipped or a side of a pair. -/
  count_eq : p.skipped + p.pairs.countP (·.old.isSome) + p.pairs.countP (·.new.isSome) =
    old.length + new.length

/-- There are as many files with one of the extensions as pairs with them on a side. -/
theorem countP_side {ps : List FilePair} {side : FilePair → Option String}
    (hps : (ps.map FilePair.key).Nodup) (hfs : (fs.map FoundFile.key).Nodup)
    (hside : ∀ q ∈ ps, side q = chosenPath? extensions fs q.key)
    (hkeys : ∀ f ∈ fs, IsChosen extensions f.key → f.key ∈ ps.map FilePair.key) :
    ps.countP (fun q => (side q).isSome) = fs.countP fun f => isLayoutFile extensions f.key := by
  have hperm : ((ps.filter fun q => (side q).isSome).map FilePair.key).Perm
      ((fs.filter fun f => isLayoutFile extensions f.key).map FoundFile.key) := by
    rw [List.perm_ext_iff_of_nodup (nodup_map_filter hps _) (nodup_map_filter hfs _)]
    intro key
    simp only [List.mem_map, List.mem_filter, isLayoutFile_iff]
    constructor
    · rintro ⟨q, ⟨hq, hsome⟩, rfl⟩
      rw [hside q hq, isSome_chosenPath?_iff, List.mem_map] at hsome
      obtain ⟨hchosen, f, hf, hkey⟩ := hsome
      exact ⟨f, ⟨hf, hkey ▸ hchosen⟩, hkey⟩
    · rintro ⟨f, ⟨hf, hchosen⟩, rfl⟩
      obtain ⟨q, hq, hkey⟩ := List.mem_map.1 (hkeys f hf hchosen)
      refine ⟨q, ⟨hq, ?_⟩, hkey⟩
      rw [hside q hq, hkey, isSome_chosenPath?_iff]
      exact ⟨hchosen, List.mem_map_of_mem hf⟩
  rw [List.countP_eq_length_filter, List.countP_eq_length_filter]
  simpa using hperm.length_eq

theorem nodup_keys_of_ascending {ps : List FilePair}
    (h : ps.Pairwise fun a b => Text.before a.key b.key = true) : (ps.map FilePair.key).Nodup :=
  List.pairwise_map.2 (h.imp Text.ne_of_before)

theorem ofFiles_pairsUp (hold : (old.map FoundFile.key).Nodup)
    (hnew : (new.map FoundFile.key).Nodup) :
    PairsUp extensions old new (ofFiles extensions old new) := by
  have hpairs {q : FilePair} : q ∈ (ofFiles extensions old new).pairs ↔ _ :=
    mem_pairs_iff hold hnew
  have hkeys : ∀ key, key ∈ (ofFiles extensions old new).pairs.map FilePair.key ↔
      IsChosen extensions key ∧ (key ∈ old.map FoundFile.key ∨ key ∈ new.map FoundFile.key) := by
    intro key
    rw [and_or_left, ← isSome_chosenPath?_iff, ← isSome_chosenPath?_iff, List.mem_map]
    constructor
    · rintro ⟨q, hq, rfl⟩
      obtain ⟨hqold, hqnew, hsome⟩ := hpairs.1 hq
      rwa [← hqold, ← hqnew]
    · intro hsome
      exact ⟨⟨key, chosenPath? extensions old key, chosenPath? extensions new key⟩,
        hpairs.2 ⟨rfl, rfl, hsome⟩, rfl⟩
  have hascending := ofFiles_ascending extensions old new
  have hnodup := nodup_keys_of_ascending hascending
  constructor
  · exact hascending
  · exact hkeys
  · intro q hq path
    rw [(hpairs.1 hq).1, chosenPath?_eq_some_iff hold]
  · intro q hq path
    rw [(hpairs.1 hq).2.1, chosenPath?_eq_some_iff hnew]
  · intro q hq
    exact (hpairs.1 hq).2.2
  · rw [countP_side hnodup hold (fun q hq => (hpairs.1 hq).1) fun f hf hchosen =>
        (hkeys f.key).2 ⟨hchosen, .inl (List.mem_map_of_mem hf)⟩,
      countP_side hnodup hnew (fun q hq => (hpairs.1 hq).2.1) fun f hf hchosen =>
        (hkeys f.key).2 ⟨hchosen, .inr (List.mem_map_of_mem hf)⟩]
    have hcountOld := old.length_eq_countP_add_countP fun f => isLayoutFile extensions f.key
    have hcountNew := new.length_eq_countP_add_countP fun f => isLayoutFile extensions f.key
    simp only [ofFiles, ← List.countP_eq_length_filter, Bool.not_eq_true,
      Bool.decide_eq_false] at hcountOld hcountNew ⊢
    omega

end Pairing

/-- The pair seen from the new directory. -/
def FilePair.swap (q : FilePair) : FilePair := ⟨q.key, q.new, q.old⟩

namespace Pairing

variable {extensions : Option (List String)} {old new : List FoundFile} {p q : Pairing}

def swap (p : Pairing) : Pairing := ⟨p.pairs.map FilePair.swap, p.skipped⟩

namespace PairsUp

theorem swap (h : PairsUp extensions old new p) : PairsUp extensions new old p.swap := by
  have hkeys : p.swap.pairs.map FilePair.key = p.pairs.map FilePair.key := by
    simp [Pairing.swap, FilePair.swap]
  constructor
  · exact List.pairwise_map.2 h.ascending
  · intro key
    rw [hkeys, h.mem_keys_iff, or_comm]
  · exact List.forall_mem_map.2 h.new_eq_iff
  · exact List.forall_mem_map.2 h.old_eq_iff
  · exact List.forall_mem_map.2 fun q hq => (h.occupied q hq).symm
  · have hcount := h.count_eq
    simp only [Pairing.swap, List.countP_map, Function.comp_def, FilePair.swap]
    omega

theorem mem_of_mem (hp : PairsUp extensions old new p) (hq : PairsUp extensions old new q)
    {r : FilePair} (hr : r ∈ p.pairs) : r ∈ q.pairs := by
  have hkey : r.key ∈ q.pairs.map FilePair.key :=
    (hq.mem_keys_iff r.key).2 ((hp.mem_keys_iff r.key).1 (List.mem_map_of_mem hr))
  obtain ⟨s, hs, hsr⟩ := List.mem_map.1 hkey
  have hold : s.old = r.old := by
    apply Option.ext
    intro path
    rw [hq.old_eq_iff s hs, hp.old_eq_iff r hr, hsr]
  have hnew : s.new = r.new := by
    apply Option.ext
    intro path
    rw [hq.new_eq_iff s hs, hp.new_eq_iff r hr, hsr]
  cases r
  cases s
  simp_all

/-- Only one pairing is that of two directories. -/
theorem unique (hp : PairsUp extensions old new p) (hq : PairsUp extensions old new q) :
    p = q := by
  have hnodup {r : Pairing} (hr : PairsUp extensions old new r) : r.pairs.Nodup :=
    (nodup_keys_of_ascending hr.ascending).of_map _
  have hperm : p.pairs.Perm q.pairs := by
    rw [List.perm_ext_iff_of_nodup (hnodup hp) (hnodup hq)]
    exact fun r => ⟨hp.mem_of_mem hq, hq.mem_of_mem hp⟩
  have hpairs : p.pairs = q.pairs := by
    refine hperm.eq_of_pairwise (fun a b _ _ hab hba => ?_) hp.ascending hq.ascending
    exact absurd hba (Text.before_asymm hab)
  have hcount := hp.count_eq
  have hskipped : p.skipped = q.skipped := by
    rw [hpairs, ← hq.count_eq] at hcount
    omega
  cases p
  cases q
  simp_all

end PairsUp

/-- Nothing is lost and nothing comes twice, whatever was found in the two directories and in
whatever order: the keys are those of the files with one of the extensions, in ascending order, each
of these files is a side of the pair under its key, and all other files are counted. The directories
in the other order have the same pairs with their sides exchanged. -/
theorem ofFiles_loses_nothing (hold : (old.map FoundFile.key).Nodup)
    (hnew : (new.map FoundFile.key).Nodup) :
    PairsUp extensions old new (ofFiles extensions old new) ∧
      ofFiles extensions new old = (ofFiles extensions old new).swap :=
  ⟨ofFiles_pairsUp hold hnew,
    (ofFiles_pairsUp hnew hold).unique (ofFiles_pairsUp hold hnew).swap⟩

theorem filesIn_of_holdsDirectory {t : FileTree} {directory : String}
    (h : t.holdsDirectory directory = true) (patterns : List String) :
    ∃ fs, filesIn t directory patterns = .ok fs := by
  unfold FileTree.holdsDirectory at h
  unfold filesIn
  cases hl : t.locate directory with
  | error e =>
    rw [hl] at h
    cases h
  | ok l =>
    rw [hl] at h
    exact ⟨_, if_pos h⟩

/-- Pairing up loses nothing, for all files that may be found as long as each is found once. Two
directories can always be paired up, and their files are among these. -/
theorem ofDirectories_loses_nothing :
    (∀ (extensions : Option (List String)) (old new : List FoundFile),
      (old.map FoundFile.key).Nodup → (new.map FoundFile.key).Nodup →
        PairsUp extensions old new (ofFiles extensions old new) ∧
          ofFiles extensions new old = (ofFiles extensions old new).swap) ∧
      ∀ (t : FileTree) (oldDir newDir : String), t.holdsDirectory oldDir = true →
        t.holdsDirectory newDir = true →
        ∀ (extensions : Option (List String)) (patterns : List String),
          ∃ old new pairing, filesIn t oldDir patterns = .ok old ∧
            filesIn t newDir patterns = .ok new ∧
            ofDirectories t oldDir newDir extensions patterns = .ok pairing ∧
            ((old.map FoundFile.key).Nodup → (new.map FoundFile.key).Nodup →
              PairsUp extensions old new pairing ∧
                ofDirectories t newDir oldDir extensions patterns = .ok pairing.swap) := by
  refine ⟨fun extensions old new => ofFiles_loses_nothing, ?_⟩
  intro t oldDir newDir hold hnew extensions patterns
  obtain ⟨old, hfsOld⟩ := filesIn_of_holdsDirectory hold patterns
  obtain ⟨new, hfsNew⟩ := filesIn_of_holdsDirectory hnew patterns
  have hpairing : ofDirectories t oldDir newDir extensions patterns =
      .ok (ofFiles extensions old new) := by
    rw [ofDirectories, hfsOld, hfsNew]
    rfl
  have hswapped : ofDirectories t newDir oldDir extensions patterns =
      .ok (ofFiles extensions new old) := by
    rw [ofDirectories, hfsOld, hfsNew]
    rfl
  refine ⟨old, new, ofFiles extensions old new, hfsOld, hfsNew, hpairing, ?_⟩
  intro hold hnew
  obtain ⟨hpairsUp, hswap⟩ := ofFiles_loses_nothing hold hnew
  exact ⟨hpairsUp, hswapped.trans (congrArg Except.ok hswap)⟩

/-- The broken vault is in the new directory only. -/
theorem ofDirectories_loses_nothing_vaults :
    ofDirectories .vaults "new" "old" (some [".JSON"]) [] = .ok ⟨[
      ⟨"Broken.json", some "new/Broken.json", none⟩,
      ⟨"Vault.json", some "new/Vault.json", some "old/Vault.json"⟩], 0⟩ := by
  have hold : FileTree.vaults.holdsDirectory "old" = true := by decide +kernel
  have hnew : FileTree.vaults.holdsDirectory "new" = true := by decide +kernel
  obtain ⟨old, new, pairing, hfsOld, hfsNew, hpairing, h⟩ :=
    ofDirectories_loses_nothing.2 _ _ _ hold hnew (some [".JSON"]) []
  have hfsOld' : filesIn .vaults "old" [] = .ok [⟨"Vault.json", "old/Vault.json"⟩] := by
    decide +kernel
  have hfsNew' : filesIn .vaults "new" [] =
      .ok [⟨"Broken.json", "new/Broken.json"⟩, ⟨"Vault.json", "new/Vault.json"⟩] := by
    decide +kernel
  obtain rfl := Except.ok.inj (hfsOld.symm.trans hfsOld')
  obtain rfl := Except.ok.inj (hfsNew.symm.trans hfsNew')
  have hpairing' : ofDirectories .vaults "old" "new" (some [".JSON"]) [] = .ok ⟨[
      ⟨"Broken.json", none, some "new/Broken.json"⟩,
      ⟨"Vault.json", some "old/Vault.json", some "new/Vault.json"⟩], 0⟩ := by
    decide +kernel
  obtain rfl := Except.ok.inj (hpairing.symm.trans hpairing')
  exact (h (by decide) (by decide)).2

end Pairing

end StorageUpgrade
