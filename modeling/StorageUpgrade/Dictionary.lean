import StorageUpgrade.Text.Order

/-!
# Dictionaries

Values under text keys, each key once, listed in the order of the keys. Two dictionaries that
answer every question alike are therefore equal.
-/
namespace StorageUpgrade

/-- Values under ascending keys. -/
structure Dictionary (α : Type) where
  entries : List (String × α)
  ascending : entries.Pairwise fun a b => Text.before a.1 b.1 = true

namespace Dictionary

variable {α : Type}

def empty : Dictionary α := ⟨[], .nil⟩

/-- Entry put in its place, in the stead of an entry with the same key. -/
def insertEntry (key : String) (value : α) : List (String × α) → List (String × α)
  | [] => [(key, value)]
  | e :: es =>
    if Text.before key e.1 then (key, value) :: e :: es
    else if key = e.1 then (key, value) :: es
    else e :: insertEntry key value es

theorem mem_insertEntry {key : String} {value : α} {es : List (String × α)} {e : String × α}
    (h : e ∈ insertEntry key value es) : e = (key, value) ∨ e ∈ es := by
  induction es with
  | nil => simpa [insertEntry] using h
  | cons d es ih =>
    unfold insertEntry at h
    split at h
    · simpa using h
    · split at h
      · rcases List.mem_cons.1 h with h | h
        · exact .inl h
        · exact .inr (.tail _ h)
      · rcases List.mem_cons.1 h with h | h
        · exact .inr (h ▸ .head _)
        · exact (ih h).imp_right (.tail _)

theorem pairwise_insertEntry (key : String) (value : α) {es : List (String × α)}
    (h : es.Pairwise fun a b => Text.before a.1 b.1 = true) :
    (insertEntry key value es).Pairwise fun a b => Text.before a.1 b.1 = true := by
  induction es with
  | nil => simp [insertEntry]
  | cons d es ih =>
    obtain ⟨hd, hes⟩ := List.pairwise_cons.1 h
    unfold insertEntry
    split
    · next hk =>
      refine List.pairwise_cons.2 ⟨fun e he => ?_, h⟩
      rcases List.mem_cons.1 he with rfl | he
      · exact hk
      · exact Text.before_trans hk (hd e he)
    · next hk =>
      split
      · next heq => exact List.pairwise_cons.2 ⟨fun e he => heq ▸ hd e he, hes⟩
      · next hne =>
        refine List.pairwise_cons.2 ⟨fun e he => ?_, ih hes⟩
        rcases mem_insertEntry he with rfl | he
        · rcases Text.before_trichotomy key d.1 with h | h | h
          · exact absurd h hk
          · exact absurd h hne
          · exact h
        · exact hd e he

def insert (d : Dictionary α) (key : String) (value : α) : Dictionary α :=
  ⟨insertEntry key value d.entries, pairwise_insertEntry key value d.ascending⟩

/-- Entries set one after the other, so that the last value under a key counts. -/
def ofList (es : List (String × α)) : Dictionary α :=
  es.foldl (fun d e => d.insert e.1 e.2) empty

def find? (d : Dictionary α) (key : String) : Option α :=
  (d.entries.find? fun e => e.1 = key).map (·.2)

theorem find_insertEntry (key other : String) (value : α) (es : List (String × α))
    (h : es.Pairwise fun a b => Text.before a.1 b.1 = true) :
    ((insertEntry key value es).find? fun e => e.1 = other) =
      if key = other then some (key, value) else es.find? fun e => e.1 = other := by
  induction es with
  | nil => by_cases hk : key = other <;> simp [insertEntry, hk]
  | cons d es ih =>
    obtain ⟨hd, hes⟩ := List.pairwise_cons.1 h
    unfold insertEntry
    split
    · by_cases hk : key = other <;> simp [hk]
    · split
      · next heq => by_cases hk : key = other <;> simp [hk, ← heq]
      · next hne =>
        by_cases hd : d.1 = other
        · have : key ≠ other := fun hk => hne (hk.trans hd.symm)
          simp [hd, this]
        · simp [hd, ih hes]

@[simp] theorem find?_empty (key : String) : (empty : Dictionary α).find? key = none := rfl

@[simp] theorem find?_insert (d : Dictionary α) (key other : String) (value : α) :
    (d.insert key value).find? other = if key = other then some value else d.find? other := by
  simp only [find?, insert, find_insertEntry key other value d.entries d.ascending]
  split <;> rfl

def map {β : Type} (f : α → β) (d : Dictionary α) : Dictionary β :=
  ⟨d.entries.map fun e => (e.1, f e.2), by simpa [List.pairwise_map] using d.ascending⟩

theorem ext {a b : Dictionary α} (h : a.entries = b.entries) : a = b := by
  cases a; cases b; simp_all

instance [DecidableEq α] : DecidableEq (Dictionary α) := fun a b =>
  decidable_of_iff (a.entries = b.entries) ⟨ext, fun h => h ▸ rfl⟩

end Dictionary

end StorageUpgrade
