import Mathlib.Algebra.Group.Nat.Defs
import StorageUpgrade.Json.Lexeme

/-!
# Decimal spellings

A number is written by its decimal digits, and each of the readers of digits finds it again: the one
of positions below their limit, and the one of JSON numbers below the limit of a word.
-/
namespace StorageUpgrade

variable {c : Char} {ds : List Char} {value n : Nat}

theorem toList_toString (n : Nat) : (toString n).toList = Nat.toDigits 10 n := by
  rw [Nat.toString_eq_repr, Nat.toList_repr]

theorem isDigit_of_mem_decimal (h : c ∈ Nat.toDigits 10 n) : c.isDigit = true :=
  Nat.isDigit_of_mem_toDigits (by decide) (by decide) h

/-- More digits never make a number smaller. -/
theorem le_ofDigitChars (value : Nat) (ds : List Char) : value ≤ Nat.ofDigitChars 10 ds value := by
  rw [Nat.ofDigitChars_eq_ofDigitChars_zero]
  have hpos : 0 < 10 ^ ds.length := Nat.pow_pos (by decide)
  calc value ≤ 10 ^ ds.length * value := Nat.le_mul_of_pos_left value hpos
    _ ≤ _ := Nat.le_add_right _ _

/-- Reading from the left, a digit comes behind ten times the number so far. -/
theorem ofDigitChars_cons (c : Char) (cs : List Char) (value : Nat) :
    Nat.ofDigitChars 10 (c :: cs) value =
      Nat.ofDigitChars 10 cs (value * 10 + (c.toNat - '0'.toNat)) := by
  rw [Nat.ofDigitChars_cons, Nat.mul_comm]

/-- Only zero has a decimal spelling that begins with a zero. -/
theorem head?_decimal_ne_zero (hn : 0 < n) : (Nat.toDigits 10 n).head? ≠ some '0' := by
  induction n using Nat.strongRecOn with
  | ind n ih =>
    rcases Nat.lt_or_ge n 10 with hlt | hge
    · rw [Nat.toDigits_of_lt_base hlt, List.head?_cons]
      intro h
      have := Nat.digitChar_eq_zero.1 (Option.some.inj h)
      omega
    · have hdiv : 0 < n / 10 := by omega
      have hrec := ih (n / 10) (by omega) hdiv
      rw [Nat.toDigits_of_base_le (by decide) hge]
      cases hfront : Nat.toDigits 10 (n / 10) with
      | nil => exact absurd hfront Nat.toDigits_ne_nil
      | cons d ds =>
        rw [hfront] at hrec
        exact hrec

theorem exists_head_decimal (n : Nat) :
    ∃ d, (Nat.toDigits 10 n).head? = some d ∧ d.isDigit = true := by
  have hne : Nat.toDigits 10 n ≠ [] := Nat.toDigits_ne_nil
  exact ⟨_, List.head?_eq_some_head hne, isDigit_of_mem_decimal (List.head_mem hne)⟩

namespace Position

theorem digitValue_of_isDigit (h : c.isDigit = true) :
    digitValue c = some (c.toNat - '0'.toNat) := by
  have hrange : '0' ≤ c ∧ c ≤ '9' := by
    simpa [Char.isDigit, Char.le_def] using h
  exact if_pos hrange

theorem digit_lt_ten (h : c.isDigit = true) : c.toNat - '0'.toNat < 10 := by
  have hle : c.toNat ≤ '9'.toNat := by
    have : c.val ≤ '9'.val := by
      simp only [Char.isDigit, Bool.and_eq_true, decide_eq_true_eq] at h
      exact h.2
    exact this
  have : '0'.toNat = 48 := rfl
  have : '9'.toNat = 57 := rfl
  omega

/-- Digits are read to the end as long as the number stays below the limit. -/
theorem readDigits_of_isDigit (hds : ∀ c ∈ ds, c.isDigit = true)
    (h : Nat.ofDigitChars 10 ds value < limit) :
    readDigits 10 value ds = .ok (Nat.ofDigitChars 10 ds value) := by
  induction ds generalizing value with
  | nil => rfl
  | cons c cs ih =>
    obtain ⟨hc, hcs⟩ := List.forall_mem_cons.1 hds
    rw [ofDigitChars_cons] at h ⊢
    have hlt : value * 10 + (c.toNat - '0'.toNat) < limit :=
      Nat.lt_of_le_of_lt (le_ofDigitChars _ cs) h
    have hmark : c ≠ '_' := by
      rintro rfl
      cases hc
    rw [readDigits, if_neg hmark, digitValue_of_isDigit hc]
    simp only
    rw [if_pos (digit_lt_ten hc), if_pos hlt, ih hcs h]

/-- No digit selects another radix. -/
theorem ofChars_of_isDigit (hds : ∀ c ∈ ds, c.isDigit = true) :
    ofChars ds = readDigits 10 0 ds := by
  unfold ofChars
  split
  all_goals first
    | rfl
    | exact absurd (hds _ (.tail _ (.head _))) (by decide)

/-- A position is found again in its decimal spelling. -/
theorem ofChars_toString (h : n < limit) : ofChars (toString n).toList = .ok n := by
  have hds : ∀ c ∈ Nat.toDigits 10 n, c.isDigit = true := fun c hc => isDigit_of_mem_decimal hc
  rw [toList_toString, ofChars_of_isDigit hds, readDigits_of_isDigit hds,
    Nat.ofDigitChars_ten_toDigits]
  rwa [Nat.ofDigitChars_ten_toDigits]

end Position

namespace Json

/-- A word takes all of its digits into the significand. -/
theorem significand_of_isDigit (hds : ∀ c ∈ ds, c.isDigit = true)
    (h : Nat.ofDigitChars 10 ds value < 2 ^ 64) :
    significand value ds = (Nat.ofDigitChars 10 ds value, 0) := by
  induction ds generalizing value with
  | nil => rfl
  | cons c cs ih =>
    obtain ⟨_, hcs⟩ := List.forall_mem_cons.1 hds
    rw [ofDigitChars_cons] at h ⊢
    have hlt : value * 10 + (c.toNat - '0'.toNat) < Nat.pow 2 64 :=
      Nat.lt_of_le_of_lt (le_ofDigitChars _ cs) h
    rw [significand, if_pos hlt, ih hcs h]

theorem significand_decimal (h : n < 2 ^ 64) : significand 0 (Nat.toDigits 10 n) = (n, 0) := by
  have hds : ∀ c ∈ Nat.toDigits 10 n, c.isDigit = true := fun c hc => isDigit_of_mem_decimal hc
  rw [significand_of_isDigit hds, Nat.ofDigitChars_ten_toDigits]
  rwa [Nat.ofDigitChars_ten_toDigits]

end Json

end StorageUpgrade
