import Mathlib.Data.List.Induction
import Mathlib.Data.Nat.Digits.Defs
import StorageUpgrade.Numeral

/-!
# Digits and their numbers

A run of digits stands for the sum of their values, each weighted by a power of the radix. The
digits in which a number is spelled stand for that number, in any radix up to 16 and whatever the
case of its letters.
-/
namespace StorageUpgrade

namespace Position

/-- The character is a digit in the radix. -/
def IsDigit (radix : Nat) (c : Char) : Prop := ∃ d ∈ digitValue c, d < radix

instance (radix : Nat) (c : Char) : Decidable (IsDigit radix c) :=
  inferInstanceAs (Decidable (∃ d ∈ digitValue c, d < radix))

/-- The number of a run of digits. The last one counts the units. -/
def ofDigits (radix : Nat) (run : List Char) : Nat :=
  Nat.ofDigits radix (run.reverse.map fun c => (digitValue c).getD 0)

variable {radix n d : Nat} {c : Char} {run : List Char}

@[simp] theorem ofDigits_nil (radix : Nat) : ofDigits radix [] = 0 := rfl

theorem ofDigits_concat (radix : Nat) (run : List Char) (c : Char) :
    ofDigits radix (run ++ [c]) = ofDigits radix run * radix + (digitValue c).getD 0 := by
  unfold ofDigits
  rw [List.reverse_append, List.reverse_singleton, List.singleton_append, List.map_cons,
    Nat.ofDigits_cons]
  lia

/-- Reading digits from the left gives their number. -/
theorem valueOf_eq_ofDigits (radix : Nat) (run : List Char) :
    Numeral.valueOf radix run = ofDigits radix run := by
  induction run using List.reverseRecOn with
  | nil => rfl
  | append_singleton run c ih =>
    rw [ofDigits_concat, ← ih]
    simp [Numeral.valueOf]

theorem digitValue_digitChar (h : d < 16) : digitValue (Nat.digitChar d) = some d := by
  have hall : ∀ d < 16, digitValue (Nat.digitChar d) = some d := by decide
  exact hall d h

/-- The values by the numbers of the characters. -/
theorem digitValue_eq_some_iff :
    digitValue c = some d ↔ (48 ≤ c.toNat ∧ c.toNat ≤ 57 ∧ c.toNat = d + 48) ∨
      (97 ≤ c.toNat ∧ c.toNat ≤ 122 ∧ c.toNat = d + 87) ∨
      (65 ≤ c.toNat ∧ c.toNat ≤ 90 ∧ c.toNat = d + 55) := by
  have hle : ∀ a b : Char, a ≤ b ↔ a.toNat ≤ b.toNat := fun _ _ => Iff.rfl
  have hdigits : '0'.toNat = 48 ∧ '9'.toNat = 57 := ⟨rfl, rfl⟩
  have hsmall : 'a'.toNat = 97 ∧ 'z'.toNat = 122 := ⟨rfl, rfl⟩
  have hlarge : 'A'.toNat = 65 ∧ 'Z'.toNat = 90 := ⟨rfl, rfl⟩
  unfold digitValue
  simp only [hle, hdigits, hsmall, hlarge]
  split_ifs
  · rw [Option.some.injEq]
    omega
  · rw [Option.some.injEq]
    omega
  · rw [Option.some.injEq]
    omega
  · exact iff_of_false nofun (by omega)

theorem isDigit_iff :
    IsDigit radix c ↔ (48 ≤ c.toNat ∧ c.toNat ≤ 57 ∧ c.toNat < radix + 48) ∨
      (97 ≤ c.toNat ∧ c.toNat ≤ 122 ∧ c.toNat < radix + 87) ∨
      (65 ≤ c.toNat ∧ c.toNat ≤ 90 ∧ c.toNat < radix + 55) := by
  constructor
  · rintro ⟨d, hd, hlt⟩
    have := digitValue_eq_some_iff.1 hd
    omega
  · rintro (h | h | h)
    · exact ⟨c.toNat - 48, digitValue_eq_some_iff.2 (by omega), by omega⟩
    · exact ⟨c.toNat - 87, digitValue_eq_some_iff.2 (by omega), by omega⟩
    · exact ⟨c.toNat - 55, digitValue_eq_some_iff.2 (by omega), by omega⟩

theorem isDigit_ten_iff : c.isDigit = true ↔ IsDigit 10 c := by
  have hrange : c.isDigit = true ↔ 48 ≤ c.toNat ∧ c.toNat ≤ 57 := by
    simp only [Char.isDigit, Bool.and_eq_true, decide_eq_true_eq]
    rfl
  rw [hrange, isDigit_iff]
  omega

theorem isHexDigit_iff : Numeral.isHexDigit c = true ↔ IsDigit 16 c := by
  have hranges : Numeral.isHexDigit c = true ↔ (48 ≤ c.toNat ∧ c.toNat ≤ 57) ∨
      (97 ≤ c.toNat ∧ c.toNat ≤ 102) ∨ (65 ≤ c.toNat ∧ c.toNat ≤ 70) := by
    simp only [Numeral.isHexDigit, Char.isDigit, Bool.or_eq_true, Bool.and_eq_true,
      decide_eq_true_eq, or_assoc]
    rfl
  rw [hranges, isDigit_iff]
  omega

theorem isDigit_of_mem_toDigits (hlo : 1 < radix) (hhi : radix ≤ 16)
    (h : c ∈ Nat.toDigits radix n) : IsDigit radix c := by
  induction n using Nat.strongRecOn with
  | ind n ih =>
    rcases Nat.lt_or_ge n radix with hlt | hge
    · rw [Nat.toDigits_of_lt_base hlt, List.mem_singleton] at h
      subst h
      exact ⟨n, digitValue_digitChar (by omega), hlt⟩
    · rw [Nat.toDigits_of_base_le hlo hge, List.mem_append, List.mem_singleton] at h
      rcases h with h | rfl
      · exact ih _ (Nat.div_lt_self (by omega) hlo) h
      · have hlt : n % radix < radix := Nat.mod_lt _ (by omega)
        exact ⟨n % radix, digitValue_digitChar (by omega), hlt⟩

/-- A number is found again in its digits. -/
theorem ofDigits_toDigits (hlo : 1 < radix) (hhi : radix ≤ 16) (n : Nat) :
    ofDigits radix (Nat.toDigits radix n) = n := by
  induction n using Nat.strongRecOn with
  | ind n ih =>
    rcases Nat.lt_or_ge n radix with hlt | hge
    · rw [Nat.toDigits_of_lt_base hlt, ← List.nil_append [_], ofDigits_concat,
        digitValue_digitChar (by omega)]
      simp
    · have hlt : n % radix < radix := Nat.mod_lt _ (by omega)
      rw [Nat.toDigits_of_base_le hlo hge, ofDigits_concat,
        ih _ (Nat.div_lt_self (by omega) hlo), digitValue_digitChar (by omega), Option.getD_some,
        Nat.div_add_mod']

theorem toNat_toLower (c : Char) :
    c.toLower.toNat = if 65 ≤ c.toNat ∧ c.toNat ≤ 90 then c.toNat + 32 else c.toNat := by
  have hlarge : (c.val ≥ 'A'.val ∧ c.val ≤ 'Z'.val) ↔ 65 ≤ c.toNat ∧ c.toNat ≤ 90 := Iff.rfl
  unfold Char.toLower
  by_cases h : c.val ≥ 'A'.val ∧ c.val ≤ 'Z'.val
  · have hle : c.val.toNat ≤ 90 := (hlarge.1 h).2
    rw [dif_pos h, if_pos (hlarge.1 h)]
    change (c.val + 32).toNat = c.val.toNat + 32
    have hdistance : (32 : UInt32).toNat = 32 := rfl
    rw [UInt32.toNat_add, hdistance]
    exact Nat.mod_eq_of_lt (by omega)
  · rw [dif_neg h, if_neg (mt hlarge.2 h)]

/-- Letters have the same value in both cases. -/
theorem digitValue_toLower (c : Char) : digitValue c.toLower = digitValue c := by
  apply Option.ext
  intro d
  rw [digitValue_eq_some_iff, digitValue_eq_some_iff, toNat_toLower]
  split_ifs <;> omega

theorem isDigit_toLower : IsDigit radix c.toLower ↔ IsDigit radix c := by
  unfold IsDigit
  rw [digitValue_toLower]

theorem ofDigits_map_toLower (radix : Nat) (run : List Char) :
    ofDigits radix (run.map Char.toLower) = ofDigits radix run := by
  unfold ofDigits
  simp only [← List.map_reverse, List.map_map, Function.comp_def, digitValue_toLower]

end Position

end StorageUpgrade
