import StorageUpgrade.Pairing

/-!
# Comparison of two directories

Every pair of layout files is compared on its own, and a pair that cannot be read has its error for
an outcome. The outcomes come in the order of the keys.
-/
namespace StorageUpgrade.Batch

/-- Which files take part, and how many threads compare them. -/
structure Settings where
  extensions : List String
  ignorePatterns : List String
  threads : Option Nat

/-- Outcome put in front of those with a later name. -/
def insertOutcome (o : Outcome) : List Outcome → List Outcome
  | [] => [o]
  | p :: ps => if Text.before p.name o.name then p :: insertOutcome o ps else o :: p :: ps

/-- Outcomes in the order of their names. Those of the same name stay in their order. -/
def sortByName (os : List Outcome) : List Outcome := os.foldr insertOutcome []

def failed? (loaded : String × Except Error NamedPair) : Option Outcome :=
  match loaded.2 with
  | .ok _ => none
  | .error e => some ⟨loaded.1, .error e⟩

def loaded? (loaded : String × Except Error NamedPair) : Option NamedPair := loaded.2.toOption

/-- The outcomes of all pairs. There is no result when the comparison of one of them has no end. -/
def collect (t : FileTree) (oldDir newDir : String) (s : Settings) :
    Option (Except Error (List Outcome)) :=
  match Pairing.ofDirectories t oldDir newDir (some s.extensions) s.ignorePatterns with
  | .error e => some (.error e)
  | .ok pairing =>
    let all := pairing.pairs.map fun p => (p.key, p.load t)
    (compareMany s.threads (all.filterMap loaded?)).map fun compared =>
      .ok (sortByName (all.filterMap failed? ++ compared))

/-- What is said about directories that cannot be searched. -/
def searchFailure : String := "Failed to scan layout directories"

end StorageUpgrade.Batch
