import StorageUpgrade.Dictionary

/-!
# Dictionaries built entry by entry

What a dictionary answers after several entries were put into it, and that the entries of a
dictionary, put into an empty one in any order, make the same dictionary again.
-/
namespace StorageUpgrade.Dictionary

variable {α : Type} {d : Dictionary α} {es fs : List (String × α)} {key : String} {value : α}

/-- Entries put into a dictionary one after the other. -/
def insertAll (d : Dictionary α) (es : List (String × α)) : Dictionary α :=
  es.foldl (fun d e => d.insert e.1 e.2) d

@[simp] theorem insertAll_nil (d : Dictionary α) : d.insertAll [] = d := rfl

@[simp] theorem insertAll_cons (d : Dictionary α) (e : String × α) (es : List (String × α)) :
    d.insertAll (e :: es) = (d.insert e.1 e.2).insertAll es := rfl

theorem mem_of_find? (h : d.find? key = some value) : (key, value) ∈ d.entries := by
  obtain ⟨e, he, rfl⟩ := Option.map_eq_some_iff.1 h
  have hkey : e.1 = key := by simpa using List.find?_some he
  subst hkey
  exact List.mem_of_find?_eq_some he

theorem nodup_keys (d : Dictionary α) : (d.entries.map (·.1)).Nodup :=
  List.pairwise_map.2 (d.ascending.imp Text.ne_of_before)

/-- Entries under other keys do not matter. -/
theorem find?_insertAll_of_not_mem (h : key ∉ es.map (·.1)) :
    (d.insertAll es).find? key = d.find? key := by
  induction es generalizing d with
  | nil => rfl
  | cons e es ih =>
    rw [List.map_cons, List.mem_cons, not_or] at h
    rw [insertAll_cons, ih h.2, find?_insert, if_neg fun heq => h.1 heq.symm]

/-- An entry is found under its key if no other entry has this key. -/
theorem find?_insertAll_of_mem (hnodup : (es.map (·.1)).Nodup) (h : (key, value) ∈ es) :
    (d.insertAll es).find? key = some value := by
  induction es generalizing d with
  | nil => cases h
  | cons e es ih =>
    rw [List.map_cons, List.nodup_cons] at hnodup
    rw [insertAll_cons]
    rcases List.mem_cons.1 h with rfl | h
    · rw [find?_insertAll_of_not_mem hnodup.1, find?_insert, if_pos rfl]
    · exact ih hnodup.2 h

/-- An entry under a new key is one more. -/
theorem insertEntry_perm (h : key ∉ es.map (·.1)) :
    (insertEntry key value es).Perm ((key, value) :: es) := by
  induction es with
  | nil => exact .refl _
  | cons e es ih =>
    rw [List.map_cons, List.mem_cons, not_or] at h
    unfold insertEntry
    split
    · exact .refl _
    · rw [if_neg h.1]
      exact ((ih h.2).cons e).trans (.swap (key, value) e es)

theorem entries_insertAll_perm (h : ((d.entries ++ es).map (·.1)).Nodup) :
    (d.insertAll es).entries.Perm (d.entries ++ es) := by
  induction es generalizing d with
  | nil => simp
  | cons e es ih =>
    have hmiddle : (d.entries ++ e :: es).Perm (e :: (d.entries ++ es)) := List.perm_middle
    have hnodup : ((e :: (d.entries ++ es)).map (·.1)).Nodup := (hmiddle.map _).nodup_iff.1 h
    rw [List.map_cons, List.nodup_cons, List.map_append, List.mem_append, not_or] at hnodup
    have hentries : (d.insert e.1 e.2).entries.Perm (e :: d.entries) :=
      insertEntry_perm hnodup.1.1
    have hall : ((d.insert e.1 e.2).entries ++ es).Perm (d.entries ++ e :: es) :=
      (hentries.append_right es).trans hmiddle.symm
    exact (ih ((hall.map _).nodup_iff.2 h)).trans hall

/-- A dictionary is made of its entries, put into it in any order. -/
theorem insertAll_of_perm (h : d.entries.Perm es) : empty.insertAll es = d := by
  have hnodup : (es.map (·.1)).Nodup := (h.map _).nodup_iff.1 d.nodup_keys
  have hentries : (empty.insertAll es).entries.Perm es := entries_insertAll_perm hnodup
  refine ext ((hentries.trans h.symm).eq_of_pairwise ?_ (ascending _) d.ascending)
  intro a b _ _ hab hba
  exact absurd hba (Text.before_asymm hab)

/-- An entry of a dictionary is found under its key. -/
theorem find?_of_mem (h : (key, value) ∈ d.entries) : d.find? key = some value := by
  rw [← insertAll_of_perm (.refl d.entries)]
  exact find?_insertAll_of_mem d.nodup_keys h

end StorageUpgrade.Dictionary
