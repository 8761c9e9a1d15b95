/-!
# Order of texts

Texts are ordered by their code points, which is the order of their UTF-8 bytes as well. The order
is strict, and of two different texts one comes first.
-/
namespace StorageUpgrade.Text

/-- The first list of characters comes before the second one. -/
def charsBefore : List Char → List Char → Bool
  | _, [] => false
  | [], _ :: _ => true
  | a :: as, b :: bs => a.toNat < b.toNat || (a = b && charsBefore as bs)

def before (s t : String) : Bool := charsBefore s.toList t.toList

theorem charsBefore_irrefl (as : List Char) : charsBefore as as = false := by
  induction as with
  | nil => rfl
  | cons a as ih => simp [charsBefore, ih]

theorem charsBefore_trans {as bs cs : List Char} (h : charsBefore as bs = true)
    (k : charsBefore bs cs = true) : charsBefore as cs = true := by
  induction cs generalizing as bs with
  | nil => cases bs <;> simp [charsBefore] at k
  | cons c cs ih =>
    cases as with
    | nil => rfl
    | cons a as =>
      cases bs with
      | nil => simp [charsBefore] at h
      | cons b bs =>
        simp only [charsBefore, Bool.or_eq_true, decide_eq_true_eq, Bool.and_eq_true] at h k ⊢
        rcases h with h | ⟨rfl, h⟩
        · rcases k with k | ⟨rfl, _⟩
          · exact .inl (Nat.lt_trans h k)
          · exact .inl h
        · rcases k with k | ⟨rfl, k⟩
          · exact .inl k
          · exact .inr ⟨rfl, ih h k⟩

theorem charsBefore_trichotomy (as bs : List Char) :
    charsBefore as bs = true ∨ as = bs ∨ charsBefore bs as = true := by
  induction as generalizing bs with
  | nil => cases bs <;> simp [charsBefore]
  | cons a as ih =>
    cases bs with
    | nil => simp [charsBefore]
    | cons b bs =>
      by_cases hab : a = b
      · subst hab
        rcases ih bs with h | h | h <;> simp [charsBefore, h]
      · have : a.toNat ≠ b.toNat := fun h => hab (Char.toNat_inj.1 h)
        rcases Nat.lt_or_gt_of_ne this with h | h <;> simp [charsBefore, h]

theorem before_irrefl (s : String) : before s s = false := charsBefore_irrefl _

theorem before_trans {s t u : String} (h : before s t = true) (k : before t u = true) :
    before s u = true := charsBefore_trans h k

theorem ne_of_before {s t : String} (h : before s t = true) : s ≠ t := by
  rintro rfl
  rw [before_irrefl] at h
  cases h

theorem before_asymm {s t : String} (h : before s t = true) : ¬ before t s = true :=
  fun k => ne_of_before (before_trans h k) rfl

theorem before_trichotomy (s t : String) : before s t = true ∨ s = t ∨ before t s = true := by
  rcases charsBefore_trichotomy s.toList t.toList with h | h | h
  · exact .inl h
  · exact .inr (.inl (String.toList_injective h))
  · exact .inr (.inr h)

end StorageUpgrade.Text
