import Mathlib.Tactic.SplitIfs
import StorageUpgrade.Proofs.Decimal
import StorageUpgrade.Proofs.Spelling

/-!
# What readers take off the front of a text

A reader that succeeds leaves the rest of its text, and offsets never decide what it reads. The
readers of strings and numbers take the spelling of a string or number, whatever stands behind it.
-/
namespace StorageUpgrade.Json

namespace Reader

variable {α β : Type} {text middle rest ds : List Char} {a : α} {b : β}

/-- The reader takes the front of a text as this value and leaves the rest, wherever the text
begins. -/
def Takes (r : Reader α) (text : List Char) (a : α) (rest : List Char) : Prop :=
  ∀ offset, ∃ offset', r ⟨text, offset⟩ = .ok (a, ⟨rest, offset'⟩)

theorem takes_pure (a : α) (text : List Char) : Takes (pure a) text a text :=
  fun offset => ⟨offset, rfl⟩

theorem Takes.bind {r : Reader α} {f : α → Reader β} (hr : r.Takes text a middle)
    (hf : (f a).Takes middle b rest) : Takes (r >>= f) text b rest := by
  intro offset
  obtain ⟨offset₁, h₁⟩ := hr offset
  obtain ⟨offset₂, h₂⟩ := hf offset₁
  refine ⟨offset₂, ?_⟩
  change r.andThen f ⟨text, offset⟩ = _
  rw [andThen, h₁]
  exact h₂

/-- A last step that only looks at the value. -/
theorem Takes.map {r : Reader α} (h : r.Takes text a rest) (f : α → β) :
    Takes (r >>= fun a => pure (f a)) text (f a) rest :=
  h.bind (takes_pure (f a) rest)

theorem takes_here {k : Cursor → Reader α} (h : ∀ offset, (k ⟨text, offset⟩).Takes text a rest) :
    Takes (here >>= k) text a rest :=
  fun offset => h offset offset

theorem takes_peek (text : List Char) : peek.Takes text text.head? text :=
  fun offset => ⟨offset, rfl⟩

theorem takes_skipChar (c : Char) (cs : List Char) : skipChar.Takes (c :: cs) () cs :=
  fun offset => ⟨offset + c.utf8Size, rfl⟩

theorem exists_skipWhile {test : Char → Bool} (hds : ∀ c ∈ ds, test c = true)
    (hrest : ∀ c ∈ rest.head?, test c = false) (offset : Nat) :
    ∃ offset', Cursor.skipWhile test ⟨ds ++ rest, offset⟩ = ⟨rest, offset'⟩ := by
  change ∃ offset', Cursor.skipWhile.go test (ds ++ rest) offset = _
  induction ds generalizing offset with
  | nil =>
    refine ⟨offset, ?_⟩
    cases rest with
    | nil => rfl
    | cons c cs =>
      have hc : ¬test c = true := Bool.eq_false_iff.1 (hrest c rfl)
      rw [List.nil_append, Cursor.skipWhile.go, if_neg hc]
  | cons d ds ih =>
    obtain ⟨hd, hds⟩ := List.forall_mem_cons.1 hds
    rw [List.cons_append, Cursor.skipWhile.go, if_pos hd]
    exact ih hds _

theorem takes_takeWhile {test : Char → Bool} (hds : ∀ c ∈ ds, test c = true)
    (hrest : ∀ c ∈ rest.head?, test c = false) : (takeWhile test).Takes (ds ++ rest) ds rest := by
  intro offset
  obtain ⟨offset', h⟩ := exists_skipWhile hds hrest offset
  have htaken : (ds ++ rest).takeWhile test = ds := by
    rw [List.takeWhile_append_of_pos hds]
    cases rest with
    | nil => simp
    | cons c cs => simp [hrest c rfl]
  exact ⟨offset', by rw [takeWhile, h, htaken]⟩

/-- Blanks in front of a character are taken with a look at that character. -/
theorem takes_peekToken (hds : Blank ds)
    (hrest : ∀ c ∈ rest.head?, Cursor.isBlank c = false) :
    peekToken.Takes (ds ++ rest) rest.head? rest := by
  intro offset
  obtain ⟨offset', h⟩ := exists_skipWhile hds hrest offset
  exact ⟨offset', by rw [peekToken, Cursor.skipBlanks, h]⟩

end Reader

open Reader

variable {c : Char} {rest : List Char}

theorem takes_hexEscape {w x y z : Char} {i j k l : Nat} (rest : List Char)
    (hw : hexValue? w = some i) (hx : hexValue? x = some j) (hy : hexValue? y = some k)
    (hz : hexValue? z = some l) :
    hexEscape.Takes (w :: x :: y :: z :: rest) (((i * 16 + j) * 16 + k) * 16 + l) rest := by
  intro offset
  have hbytes : ¬Cursor.offsetAfter.total (w :: x :: y :: z :: rest) < 4 := by
    have := w.utf8Size_pos
    have := x.utf8Size_pos
    have := y.utf8Size_pos
    have := z.utf8Size_pos
    simp only [Cursor.offsetAfter.total]
    omega
  refine ⟨offset + 4, ?_⟩
  simp only [hexEscape, if_neg hbytes, hw, hx, hy, hz]

theorem hexValue?_hexDigit {n : Nat} (h : n < 16) : hexValue? (hexDigit n) = some n := by
  have hall : ∀ n : Fin 16, hexValue? (hexDigit n) = some n.val := by decide
  exact hall ⟨n, h⟩

theorem takes_escape_control (h : c.toNat < 0x20) :
    escape.Takes ('u' :: '0' :: '0' :: hexDigit (c.toNat / 16) :: hexDigit (c.toNat % 16) :: rest)
      c rest := by
  have hhigh : hexValue? (hexDigit (c.toNat / 16)) = some (c.toNat / 16) :=
    hexValue?_hexDigit (by omega)
  have hlow : hexValue? (hexDigit (c.toNat % 16)) = some (c.toNat % 16) :=
    hexValue?_hexDigit (by omega)
  have hcode : ((0 * 16 + 0) * 16 + c.toNat / 16) * 16 + c.toNat % 16 = c.toNat := by omega
  have hzero : hexValue? '0' = some 0 := rfl
  have hhex := takes_hexEscape rest hzero hzero hhigh hlow
  rw [hcode] at hhex
  refine (takes_peek _).bind ((takes_skipChar _ _).bind (hhex.bind ?_))
  rw [if_neg (by omega), if_neg (by omega), Char.ofNat_toNat]
  exact takes_pure c rest

/-- An escape is one character of a string. -/
theorem takes_stringChar_escape {text : List Char} (h : escape.Takes text c rest) :
    stringChar.Takes ('\\' :: text) (some c) rest :=
  (takes_peek _).bind ((takes_skipChar _ _).bind (h.map some))

/-- Each character of a string is found again in its spelling. -/
theorem takes_stringChar (c : Char) (rest : List Char) :
    stringChar.Takes (escapeChar c ++ rest) (some c) rest := by
  unfold escapeChar
  split_ifs with hquote hbackslash hfeed hreturn htab hbackspace hform hcontrol
  · subst hquote
    exact takes_stringChar_escape fun offset => ⟨_, rfl⟩
  · subst hbackslash
    exact takes_stringChar_escape fun offset => ⟨_, rfl⟩
  · subst hfeed
    exact takes_stringChar_escape fun offset => ⟨_, rfl⟩
  · subst hreturn
    exact takes_stringChar_escape fun offset => ⟨_, rfl⟩
  · subst htab
    exact takes_stringChar_escape fun offset => ⟨_, rfl⟩
  · obtain rfl : c = '\x08' := Char.toNat_inj.1 hbackspace
    exact takes_stringChar_escape fun offset => ⟨_, rfl⟩
  · obtain rfl : c = '\x0c' := Char.toNat_inj.1 hform
    exact takes_stringChar_escape fun offset => ⟨_, rfl⟩
  · exact takes_stringChar_escape (takes_escape_control hcontrol)
  · refine (takes_peek _).bind ?_
    split
    · next heq => cases heq
    · next heq => exact absurd (Option.some.inj heq) hquote
    · next heq => exact absurd (Option.some.inj heq) hbackslash
    · next x _ _ heq =>
      obtain rfl : c = x := Option.some.inj heq
      rw [if_neg hcontrol]
      exact (takes_skipChar _ _).bind (takes_pure _ _)

theorem takes_stringChars (rest cs read : List Char) {n : Nat} (h : cs.length < n) :
    (stringChars n read).Takes (cs.flatMap escapeChar ++ '"' :: rest) (read.reverse ++ cs)
      rest := by
  induction cs generalizing n read with
  | nil =>
    obtain ⟨n, rfl⟩ := Nat.exists_eq_add_of_lt h
    have hend : stringChar.Takes ('"' :: rest) none rest :=
      (takes_peek _).bind ((takes_skipChar _ _).bind (takes_pure _ _))
    rw [List.append_nil]
    exact hend.bind (takes_pure _ _)
  | cons c cs ih =>
    obtain ⟨n, rfl⟩ : ∃ m, n = m + 1 := ⟨n - 1, by omega⟩
    have hrest := ih (c :: read) (Nat.lt_of_succ_lt_succ h)
    rw [List.reverse_cons, List.append_assoc, List.singleton_append] at hrest
    rw [List.flatMap_cons, List.append_assoc]
    exact (takes_stringChar c _).bind hrest

theorem length_le_escaped (cs : List Char) : cs.length ≤ (cs.flatMap escapeChar).length := by
  induction cs with
  | nil => exact Nat.le_refl 0
  | cons c cs ih =>
    have hc : 0 < (escapeChar c).length := by
      unfold escapeChar
      split_ifs <;> exact Nat.zero_lt_succ _
    rw [List.flatMap_cons, List.length_append, List.length_cons]
    omega

theorem toList_stringText (s : String) :
    (stringText s).toList = '"' :: (s.toList.flatMap escapeChar ++ ['"']) := by
  rw [stringText, String.toList_ofList, List.cons_append]

/-- A string is found again in its spelling. -/
theorem takes_readString (s : String) (rest : List Char) :
    readString.Takes ((stringText s).toList ++ rest) s rest := by
  rw [toList_stringText, List.cons_append, List.append_assoc, List.singleton_append]
  refine (takes_skipChar _ _).bind (takes_here fun offset => ?_)
  have hlength : s.toList.length < (s.toList.flatMap escapeChar ++ '"' :: rest).length + 1 := by
    have := length_le_escaped s.toList
    rw [List.length_append]
    omega
  have hchars := takes_stringChars rest s.toList [] hlength
  rw [List.reverse_nil, List.nil_append] at hchars
  have hread := hchars.map String.ofList
  rw [String.ofList_toList] at hread
  exact hread

/-- A number may go on with this character. -/
def goesOn (c : Char) : Bool := c.isDigit || c = '.' || c = 'e' || c = 'E'

/-- No number goes on here. -/
def Ends (text : List Char) : Prop := ∀ c ∈ text.head?, goesOn c = false

theorem ends_nil : Ends [] := by
  rintro _ ⟨⟩

theorem ends_cons (h : goesOn c = false) (cs : List Char) : Ends (c :: cs) := by
  rintro _ ⟨⟩
  exact h

theorem isDigit_of_goesOn (h : goesOn c = false) : c.isDigit = false := by
  simp only [goesOn, Bool.or_eq_false_iff] at h
  exact h.1.1.1

/-- The digits of a number: a zero stands alone. -/
def digits (first : Char) : Reader (List Char) :=
  if first = '0' then do skipChar; return ['0'] else takeWhile Char.isDigit

theorem takes_digits {n : Nat} {d : Char} (hd : (Nat.toDigits 10 n).head? = some d)
    (hrest : ∀ c ∈ rest.head?, c.isDigit = false) :
    (digits d).Takes (Nat.toDigits 10 n ++ rest) (Nat.toDigits 10 n) rest := by
  rcases Nat.eq_zero_or_pos n with rfl | hn
  · obtain rfl : '0' = d := Option.some.inj hd
    exact (takes_skipChar _ _).bind (takes_pure _ _)
  · have hzero : d ≠ '0' := by
      rintro rfl
      exact head?_decimal_ne_zero hn hd
    rw [digits, if_neg hzero]
    exact takes_takeWhile (fun c hc => isDigit_of_mem_decimal hc) hrest

/-- A word is found again in its decimal spelling. -/
theorem takes_unsignedNumber {n : Nat} (hn : n < 2 ^ 64) (hrest : Ends rest) :
    (unsignedNumber false).Takes (Nat.toDigits 10 n ++ rest) (.natural (UInt64.ofNat n)) rest := by
  obtain ⟨d, hhead, hd⟩ := exists_head_decimal n
  refine (takes_peek _).bind ?_
  rw [List.head?_append, hhead, Option.some_or]
  simp only [hd, Bool.not_true, Bool.false_eq_true, if_false]
  have hdigits : ∀ c ∈ rest.head?, c.isDigit = false := fun c hc => isDigit_of_goesOn (hrest c hc)
  refine (takes_digits hhead hdigits).bind ((takes_peek _).bind ?_)
  have hnext : ¬(d = '0' ∧ rest.head?.any Char.isDigit = true) := by
    rintro ⟨_, hany⟩
    obtain ⟨c, hc, hdigit⟩ := (Option.any_eq_true _ _).1 hany
    rw [hdigits c hc] at hdigit
    cases hdigit
  rw [if_neg hnext, significand_decimal hn]
  simp only
  split
  · next heq => exact absurd (hrest _ heq) (by decide)
  · next heq => exact absurd (hrest _ heq) (by decide)
  · next heq => exact absurd (hrest _ heq) (by decide)
  · exact takes_pure _ _

theorem takes_readNumber {n : Nat} (hn : n < 2 ^ 64) (hrest : Ends rest) :
    readNumber.Takes (Nat.toDigits 10 n ++ rest) (.natural (UInt64.ofNat n)) rest := by
  obtain ⟨d, hhead, hd⟩ := exists_head_decimal n
  have hsign : ¬some d = some '-' := by
    rintro ⟨⟩
    cases hd
  refine (takes_peek _).bind ?_
  rw [List.head?_append, hhead, Option.some_or, if_neg hsign]
  exact takes_unsignedNumber hn hrest

end StorageUpgrade.Json
