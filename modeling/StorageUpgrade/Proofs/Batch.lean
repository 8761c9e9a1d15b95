import StorageUpgrade.Batch
import StorageUpgrade.Json.Writer
import StorageUpgrade.Proofs.Entries
import StorageUpgrade.Proofs.Rewriting
import StorageUpgrade.Proofs.Termination
import StorageUpgrade.Proofs.Traversal

/-!
# Batches, pair by pair

A batch keeps the pairs that cannot be read apart from those that are compared, and sorts all
outcomes in the end. As the pairs come in the order of their keys, the result is that of loading and
comparing one pair after the other. A single comparison without an end keeps the whole batch from
its own.
-/
namespace StorageUpgrade

namespace FilePair

variable {t : FileTree} {p : FilePair} {o : Outcome}

/-- The pair loaded and compared on its own, up to the first error. There is no outcome when the
comparison has no end. -/
def outcome (t : FileTree) (p : FilePair) : Option Outcome :=
  match loadSide t p.old, loadSide t p.new with
  | .error e, _ => some ⟨p.key, .error e⟩
  | .ok _, .error e => some ⟨p.key, .error e⟩
  | .ok old, .ok new => (compareDocuments old new).map fun result => ⟨p.key, result⟩

/-- Both sides are documents, and their comparison has no end. -/
def Endless (t : FileTree) (p : FilePair) : Prop :=
  ∃ old new, loadSide t p.old = .ok old ∧ loadSide t p.new = .ok new ∧ old.Endless new

theorem outcome_eq_none_iff : p.outcome t = none ↔ p.Endless t := by
  rw [outcome]
  cases hold : loadSide t p.old with
  | error e => exact iff_of_false nofun fun ⟨_, _, h, _⟩ => nomatch hold.symm.trans h
  | ok old =>
    cases hnew : loadSide t p.new with
    | error e => exact iff_of_false nofun fun ⟨_, _, _, h, _⟩ => nomatch hnew.symm.trans h
    | ok new =>
      rw [Option.map_eq_none_iff, compareDocuments_eq_none_iff]
      constructor
      · exact fun h => ⟨old, new, hold, hnew, h⟩
      · rintro ⟨d, e, hd, he, h⟩
        cases hold.symm.trans hd
        cases hnew.symm.trans he
        exact h

theorem name_of_outcome (h : p.outcome t = some o) : o.name = p.key := by
  rw [outcome] at h
  split at h
  · cases h
    rfl
  · cases h
    rfl
  · obtain ⟨result, _, rfl⟩ := Option.map_eq_some_iff.1 h
    rfl

theorem outcome_eq_some {result : Except Error Comparison}
    (h : (p.outcome t).map Outcome.result = some result) :
    p.outcome t = some ⟨p.key, result⟩ := by
  obtain ⟨o, ho, rfl⟩ := Option.map_eq_some_iff.1 h
  rw [ho, ← name_of_outcome ho]

/-- An outcome without an error is a comparison of documents. -/
theorem exists_documents {c : Comparison} (h : p.outcome t = some o) (hc : o.result = .ok c) :
    ∃ d e, compareDocuments d e = some (.ok c) := by
  rw [outcome] at h
  split at h
  · cases h
    cases hc
  · cases h
    cases hc
  · next d e _ _ =>
    obtain ⟨result, hcmp, rfl⟩ := Option.map_eq_some_iff.1 h
    cases hc
    exact ⟨d, e, hcmp⟩

theorem exists_of_mem_outcomes {pairs : List FilePair} {os : List Outcome}
    (h : pairs.mapM (outcome t) = some os) (ho : o ∈ os) : ∃ p ∈ pairs, p.outcome t = some o := by
  have hmem : some o ∈ pairs.map (outcome t) :=
    mapM_eq_some_iff.1 h ▸ List.mem_map_of_mem ho
  exact List.mem_map.1 hmem

/-- Outcomes are named by the keys of their pairs. -/
theorem names_of_outcomes {pairs : List FilePair} {os : List Outcome}
    (h : pairs.mapM (outcome t) = some os) : os.map Outcome.name = pairs.map FilePair.key := by
  rw [mapM_eq_some_iff] at h
  induction pairs generalizing os with
  | nil => rw [List.map_eq_nil_iff.1 h.symm, List.map_nil, List.map_nil]
  | cons p ps ih =>
    obtain ⟨o, os, rfl, ho, hos⟩ := List.map_eq_cons_iff.1 h.symm
    rw [List.map_cons, List.map_cons, name_of_outcome ho.symm, ih hos.symm]

/-- The variables of the new document hold a byte each. -/
def NewHoldsBytes (t : FileTree) (p : FilePair) : Prop :=
  ∀ d new, loadSide t p.new = .ok d → d.layout = .ok new → ∀ n ∈ new, n.start < n.stop

theorem NewHoldsBytes.not_endless (h : p.NewHoldsBytes t) : ¬ p.Endless t := by
  rintro ⟨_, d, _, hd, hendless⟩
  exact Document.not_endless (fun new hnew => h d new hd hnew) hendless

end FilePair

namespace Batch

variable {os ps : List Outcome} {o : Outcome}

/-- Each outcome has a name that comes before those of the outcomes behind it. -/
def Ascending (os : List Outcome) : Prop := os.Pairwise fun a b => Text.before a.name b.name = true

theorem Ascending.nodup_names (h : Ascending os) : (os.map Outcome.name).Nodup :=
  List.pairwise_map.2 (h.imp Text.ne_of_before)

theorem insertOutcome_perm (o : Outcome) (os : List Outcome) :
    (insertOutcome o os).Perm (o :: os) := by
  induction os with
  | nil => exact .refl _
  | cons p ps ih =>
    rw [insertOutcome]
    split
    · exact (ih.cons p).trans (.swap o p ps)
    · exact .refl _

theorem sortByName_perm (os : List Outcome) : (sortByName os).Perm os := by
  induction os with
  | nil => exact .refl _
  | cons o os ih => exact (insertOutcome_perm o _).trans (ih.cons o)

theorem insertOutcome_ascending (hname : o.name ∉ os.map Outcome.name) (h : Ascending os) :
    Ascending (insertOutcome o os) := by
  induction os with
  | nil => exact List.pairwise_singleton _ o
  | cons p ps ih =>
    obtain ⟨hp, hps⟩ := List.pairwise_cons.1 h
    rw [List.map_cons, List.mem_cons, not_or] at hname
    rw [insertOutcome]
    split
    · next hpo =>
      refine List.pairwise_cons.2 ⟨fun q hq => ?_, ih hname.2 hps⟩
      rcases List.mem_cons.1 ((insertOutcome_perm o ps).mem_iff.1 hq) with rfl | hq
      · exact hpo
      · exact hp q hq
    · next hpo =>
      have hop : Text.before o.name p.name = true := by
        rcases Text.before_trichotomy o.name p.name with h | h | h
        · exact h
        · exact absurd h hname.1
        · exact absurd h hpo
      refine List.pairwise_cons.2 ⟨fun q hq => ?_, h⟩
      rcases List.mem_cons.1 hq with rfl | hq
      · exact hop
      · exact Text.before_trans hop (hp q hq)

theorem sortByName_ascending (h : (os.map Outcome.name).Nodup) : Ascending (sortByName os) := by
  induction os with
  | nil => exact .nil
  | cons o os ih =>
    obtain ⟨ho, hos⟩ := List.nodup_cons.1 h
    refine insertOutcome_ascending (fun hmem => ho ?_) (ih hos)
    exact ((sortByName_perm os).map Outcome.name).mem_iff.1 hmem

/-- Outcomes with different names have only one ascending order. -/
theorem sortByName_eq_of_perm (h : os.Perm ps) (hps : Ascending ps) : sortByName os = ps := by
  have hnodup : (os.map Outcome.name).Nodup := (h.map Outcome.name).nodup_iff.2 hps.nodup_names
  refine ((sortByName_perm os).trans h).eq_of_pairwise (fun a b _ _ hab hba => ?_)
    (sortByName_ascending hnodup) hps
  exact absurd hba (Text.before_asymm hab)

/-- The outcome of a pair that was loaded under a key, or could not be. -/
def outcomeOf (loaded : String × Except Error NamedPair) : Option Outcome :=
  match loaded.2 with
  | .ok named => named.outcome
  | .error e => some ⟨loaded.1, .error e⟩

theorem outcomeOf_load (t : FileTree) (p : FilePair) :
    outcomeOf (p.key, p.load t) = p.outcome t := by
  rw [FilePair.outcome, FilePair.load]
  cases FilePair.loadSide t p.old with
  | error e => rfl
  | ok old => cases FilePair.loadSide t p.new <;> rfl

/-- The failures and the outcomes of the loaded pairs are all outcomes, in another order, and either
all of them are there or none is. -/
theorem failed_append_loaded_perm (all : List (String × Except Error NamedPair)) :
    Option.Rel List.Perm
      (((all.filterMap loaded?).mapM NamedPair.outcome).map (all.filterMap failed? ++ ·))
      (all.mapM outcomeOf) := by
  induction all with
  | nil => exact .some (.refl _)
  | cons loaded all ih =>
    rw [List.mapM_cons]
    obtain ⟨key, e | named⟩ := loaded
    · have hloaded : ((key, .error e) :: all).filterMap loaded? = all.filterMap loaded? := rfl
      have hfailed : ((key, .error e) :: all).filterMap failed? =
          ⟨key, .error e⟩ :: all.filterMap failed? := rfl
      rw [hloaded, hfailed]
      generalize (all.filterMap loaded?).mapM NamedPair.outcome = compared at ih ⊢
      generalize all.mapM outcomeOf = outcomes at ih ⊢
      cases compared with
      | none =>
        cases ih
        exact .none
      | some os =>
        cases ih with
        | some hperm => exact .some (hperm.cons _)
    · have hloaded : ((key, .ok named) :: all).filterMap loaded? =
          named :: all.filterMap loaded? := rfl
      have hfailed : ((key, .ok named) :: all).filterMap failed? = all.filterMap failed? := rfl
      rw [hloaded, hfailed, List.mapM_cons]
      generalize (all.filterMap loaded?).mapM NamedPair.outcome = compared at ih ⊢
      generalize all.mapM outcomeOf = outcomes at ih ⊢
      simp only [outcomeOf]
      cases named.outcome with
      | none => exact .none
      | some o =>
        cases compared with
        | none =>
          cases ih
          exact .none
        | some os =>
          cases ih with
          | some hperm => exact .some (List.perm_middle.trans (hperm.cons o))

end Batch

namespace Pairing

variable {d : Dictionary FilePair} {key : String} {change : FilePair → FilePair}

/-- Every pair stands under its own key. -/
def Keyed (d : Dictionary FilePair) : Prop := ∀ e ∈ d.entries, e.2.key = e.1

theorem keyed_update (hd : Keyed d) (hchange : ∀ p, (change p).key = p.key) :
    Keyed (update d key change) := by
  intro e he
  rcases Dictionary.mem_insertEntry he with rfl | he
  · rw [hchange]
    cases hfind : d.find? key with
    | none => rfl
    | some p => exact hd _ (Dictionary.mem_of_find? hfind)
  · exact hd e he

theorem keyed_foldl_update (hd : Keyed d) {change : FoundFile → FilePair → FilePair}
    (hchange : ∀ f p, (change f p).key = p.key) (fs : List FoundFile) :
    Keyed (fs.foldl (fun d f => update d f.key (change f)) d) := by
  induction fs generalizing d with
  | nil => exact hd
  | cons f fs ih => exact ih (keyed_update hd (hchange f))

/-- The pairs come in the order of their keys, no key twice. -/
theorem ofFiles_ascending (extensions : Option (List String)) (old new : List FoundFile) :
    (ofFiles extensions old new).pairs.Pairwise fun p q => Text.before p.key q.key = true := by
  obtain ⟨both, hpairs, hkeyed⟩ : ∃ both,
      (ofFiles extensions old new).pairs = both.entries.map (·.2) ∧ Keyed both := by
    refine ⟨_, rfl, keyed_foldl_update (keyed_foldl_update ?_ ?_ _) ?_ _⟩
    · exact fun _ he => nomatch he
    · exact fun _ _ => rfl
    · exact fun _ _ => rfl
  rw [hpairs]
  refine List.pairwise_map.2 (both.ascending.imp_of_mem fun {a b} ha hb hab => ?_)
  rwa [hkeyed a ha, hkeyed b hb]

theorem ofDirectories_ascending {t : FileTree} {oldDir newDir : String}
    {extensions : Option (List String)} {patterns : List String} {pairing : Pairing}
    (h : ofDirectories t oldDir newDir extensions patterns = .ok pairing) :
    pairing.pairs.Pairwise fun p q => Text.before p.key q.key = true := by
  obtain ⟨old, _, h⟩ := bind_eq_ok_iff.1 h
  obtain ⟨new, _, h⟩ := bind_eq_ok_iff.1 h
  cases h
  exact ofFiles_ascending extensions old new

end Pairing

/-- A side of the pair is read from the location. -/
def FilePair.ReadsFrom (t : FileTree) (p : FilePair) (l : Location) : Prop :=
  ∃ path, (p.old = some path ∨ p.new = some path) ∧ t.locate path = .ok l

/-- What stands in a file is of no concern to the pairs that are read from elsewhere. -/
theorem FilePair.outcome_rewrite {t : FileTree} {p : FilePair} {l : Location} (bytes : ByteArray)
    (h : ¬ p.ReadsFrom t l) : p.outcome (t.rewrite l bytes) = p.outcome t := by
  have hold : loadSide (t.rewrite l bytes) p.old = loadSide t p.old :=
    loadSide_rewrite t bytes fun path hpath hl => h ⟨path, .inl hpath, hl⟩
  have hnew : loadSide (t.rewrite l bytes) p.new = loadSide t p.new :=
    loadSide_rewrite t bytes fun path hpath hl => h ⟨path, .inr hpath, hl⟩
  rw [outcome, outcome, hold, hnew]

namespace Batch

variable {t : FileTree} {oldDir newDir : String} {s : Settings} {pairing : Pairing}

/-- The outcomes of pairs in ascending order ascend as well. -/
theorem ascending_of_mapM {pairs : List FilePair}
    (hpairs : pairs.Pairwise fun p q => Text.before p.key q.key = true)
    (h : pairs.mapM (FilePair.outcome t) = some os) : Ascending os := by
  have hnames : (os.map Outcome.name).Pairwise fun a b => Text.before a b = true := by
    rw [FilePair.names_of_outcomes h]
    exact List.pairwise_map.2 hpairs
  exact List.pairwise_map.1 hnames

/-- A batch is the loop over its pairs. -/
theorem collect_eq_mapM
    (h : Pairing.ofDirectories t oldDir newDir (some s.extensions) s.ignorePatterns = .ok pairing) :
    collect t oldDir newDir s = (pairing.pairs.mapM (FilePair.outcome t)).map .ok := by
  have houtcomes : (pairing.pairs.map fun p => (p.key, p.load t)).mapM outcomeOf =
      pairing.pairs.mapM (FilePair.outcome t) := by
    rw [List.mapM_map]
    exact congrArg (List.mapM · pairing.pairs) (funext (outcomeOf_load t))
  have hperm := failed_append_loaded_perm (pairing.pairs.map fun p => (p.key, p.load t))
  rw [houtcomes] at hperm
  simp only [collect, h, compareMany_eq_mapM]
  generalize List.mapM NamedPair.outcome _ = compared at hperm ⊢
  cases hos : pairing.pairs.mapM (FilePair.outcome t) with
  | none =>
    rw [hos] at hperm
    cases compared with
    | none => rfl
    | some compared => cases hperm
  | some os =>
    rw [hos] at hperm
    cases compared with
    | none => cases hperm
    | some compared =>
      cases hperm with
      | some hperm =>
        have hascending : Ascending os := ascending_of_mapM (Pairing.ofDirectories_ascending h) hos
        rw [Option.map_some, Option.map_some, sortByName_eq_of_perm hperm hascending]

/-- A batch is the loop that loads and compares its pairs one after the other, and it comes to an
end when the comparison of each of them does. -/
structure PairByPair (t : FileTree) (oldDir newDir : String) (s : Settings)
    (pairs : List FilePair) : Prop where
  /-- Each pair has its outcome, in the order of the keys. -/
  ends : (∀ p ∈ pairs, ¬ p.Endless t) →
    ∃ os, collect t oldDir newDir s = some (.ok os) ∧
      pairs.map (FilePair.outcome t) = os.map some ∧ Ascending os
  /-- A single comparison without an end is waited for in vain. -/
  endless : (∃ p ∈ pairs, p.Endless t) → collect t oldDir newDir s = none
  loop : collect t oldDir newDir s = (pairs.mapM (FilePair.outcome t)).map .ok
  not_endless : ∀ p : FilePair, p.NewHoldsBytes t → ¬ p.Endless t
  threads : ∀ threads, collect t oldDir newDir { s with threads } = collect t oldDir newDir s

theorem pairByPair
    (h : Pairing.ofDirectories t oldDir newDir (some s.extensions) s.ignorePatterns = .ok pairing) :
    PairByPair t oldDir newDir s pairing.pairs where
  ends hends := by
    cases hos : pairing.pairs.mapM (FilePair.outcome t) with
    | none =>
      obtain ⟨p, hp, hnone⟩ := mapM_eq_none_iff.1 hos
      exact absurd (FilePair.outcome_eq_none_iff.1 hnone) (hends p hp)
    | some os =>
      refine ⟨os, ?_, mapM_eq_some_iff.1 hos,
        ascending_of_mapM (Pairing.ofDirectories_ascending h) hos⟩
      rw [collect_eq_mapM h, hos, Option.map_some]
  endless := by
    rintro ⟨p, hp, hendless⟩
    have hnone : pairing.pairs.mapM (FilePair.outcome t) = none :=
      mapM_eq_none_iff.2 ⟨p, hp, FilePair.outcome_eq_none_iff.2 hendless⟩
    rw [collect_eq_mapM h, hnone, Option.map_none]
  loop := collect_eq_mapM h
  not_endless p := FilePair.NewHoldsBytes.not_endless
  threads threads := (collect_eq_mapM (s := { s with threads }) h).trans (collect_eq_mapM h).symm

/-- A batch has the outcomes of its pairs loaded and compared one after the other, each under its
key and in ascending order, unless one of the comparisons has no end. The threads have no influence,
and other contents in a file leave the outcomes of all pairs as they are that are read from
elsewhere. -/
theorem collect_pair_by_pair
    (h : Pairing.ofDirectories t oldDir newDir (some s.extensions) s.ignorePatterns = .ok pairing) :
    PairByPair t oldDir newDir s pairing.pairs ∧
      ∀ l bytes, ¬ Ignore.IsRuleLocation l →
        PairByPair (t.rewrite l bytes) oldDir newDir s pairing.pairs ∧
          ∀ p ∈ pairing.pairs, ¬ p.ReadsFrom t l →
            p.outcome (t.rewrite l bytes) = p.outcome t := by
  refine ⟨pairByPair h, fun l bytes hl => ⟨pairByPair ?_, fun p _ hp => p.outcome_rewrite bytes hp⟩⟩
  rw [Pairing.ofDirectories_rewrite t bytes hl, h]

end Batch

/-- An empty document in both directories, and a broken one in the new directory. -/
def FileTree.vaults : FileTree where
  files := [
    (["old", "Vault.json"], "\x7b\x7d".toUTF8),
    (["new", "Broken.json"], "[".toUTF8),
    (["new", "Vault.json"], "\x7b\x7d".toUTF8)]
  directories := []
  working := []

/-- The broken document has its error for an outcome and does not stop the other pair. -/
theorem Batch.collect_pair_by_pair_vaults :
    collect .vaults "old" "new" ⟨["json"], [], some 2⟩ = some (.ok [
      ⟨"Broken.json", .error (.json ⟨.eofList, some ⟨1, 1⟩⟩)⟩,
      ⟨"Vault.json", .ok { summaryText := "No changes" }⟩]) := by
  have hpairing : Pairing.ofDirectories .vaults "old" "new" (some ["json"]) [] = .ok ⟨[
      ⟨"Broken.json", none, some "new/Broken.json"⟩,
      ⟨"Vault.json", some "old/Vault.json", some "new/Vault.json"⟩], 0⟩ := by
    decide +kernel
  have hbroken : FilePair.outcome .vaults ⟨"Broken.json", none, some "new/Broken.json"⟩ =
      some ⟨"Broken.json", .error (.json ⟨.eofList, some ⟨1, 1⟩⟩)⟩ :=
    FilePair.outcome_eq_some (by decide +kernel)
  have hvault : FilePair.outcome .vaults
      ⟨"Vault.json", some "old/Vault.json", some "new/Vault.json"⟩ =
        some ⟨"Vault.json", .ok { summaryText := "No changes" }⟩ :=
    FilePair.outcome_eq_some (by decide +kernel)
  rw [(collect_pair_by_pair (s := ⟨["json"], [], some 2⟩) hpairing).1.loop]
  simp only [List.mapM_cons, hbroken, hvault]
  rfl

/-- A word of storage, and in the new directory a record of no size in its place. -/
def FileTree.stalled : FileTree where
  files := [
    (["old", "Vault.json"], (Document.ofWords ["total"]).toJson.compact.toUTF8),
    (["new", "Vault.json"], Document.ofMarker.toJson.compact.toUTF8)]
  directories := []
  working := []

/-- The directories make a pair of documents that can be read, but their batch has no end. -/
theorem Batch.collect_stalled :
    Pairing.ofDirectories .stalled "old" "new" (some ["json"]) [] =
        .ok ⟨[⟨"Vault.json", some "old/Vault.json", some "new/Vault.json"⟩], 0⟩ ∧
      collect .stalled "old" "new" ⟨["json"], [], none⟩ = none := by
  have hpairing : Pairing.ofDirectories .stalled "old" "new" (some ["json"]) [] =
      .ok ⟨[⟨"Vault.json", some "old/Vault.json", some "new/Vault.json"⟩], 0⟩ := by
    decide +kernel
  have hold : FilePair.loadSide .stalled (some "old/Vault.json") =
      .ok (.ofWords ["total"]) := by
    decide +kernel
  have hnew : FilePair.loadSide .stalled (some "new/Vault.json") = .ok .ofMarker := by
    decide +kernel
  have hendless : (Document.ofWords ["total"]).Endless .ofMarker :=
    compareDocuments_eq_none_iff.1 Document.compareDocuments_ofMarker
  refine ⟨hpairing, (pairByPair hpairing).endless ⟨_, .head _, ?_⟩⟩
  exact ⟨_, _, hold, hnew, hendless⟩

end StorageUpgrade
