import Mathlib.Data.List.TakeWhile
import StorageUpgrade.Text.Blank

/-!
# Texts without the blanks at their ends

A text has one core, which neither begins nor ends with a blank and has only blanks around it.
Blanks put around the text leave the core as it is, and what is put behind the text goes to its end.
-/
namespace StorageUpgrade.Text

/-- All characters are blanks. -/
def AllBlank (cs : List Char) : Prop := ∀ c ∈ cs, isBlank c = true

instance (cs : List Char) : Decidable (AllBlank cs) :=
  List.decidableBAll (isBlank · = true) cs

/-- The text `core` is what is left of `cs` without the blanks at its ends. -/
structure Trimmed (cs core : List Char) : Prop where
  around : ∃ front back, AllBlank front ∧ AllBlank back ∧ cs = front ++ core ++ back
  head : ∀ c ∈ core.head?, isBlank c = false
  last : ∀ c ∈ core.getLast?, isBlank c = false

variable {cs core front back : List Char}

theorem AllBlank.append (hfront : AllBlank front) (hback : AllBlank back) :
    AllBlank (front ++ back) :=
  List.forall_mem_append.2 ⟨hfront, hback⟩

theorem trimStart_of_head (h : ∀ c ∈ cs.head?, isBlank c = false) : trimStart cs = cs := by
  cases cs with
  | nil => rfl
  | cons c cs =>
    have hc : isBlank c = false := h c rfl
    exact List.dropWhile_cons_of_neg (by simp [hc])

theorem head_trimStart (cs : List Char) : ∀ c ∈ (trimStart cs).head?, isBlank c = false := by
  intro c hc
  have hhead := List.head?_dropWhile_not isBlank cs
  rwa [show List.dropWhile isBlank cs = trimStart cs from rfl, hc] at hhead

/-- The end of a text is the beginning of the reversed text. -/
theorem trimEnd_eq (cs : List Char) : trimEnd cs = (trimStart cs.reverse).reverse := rfl

theorem last_trimEnd (cs : List Char) : ∀ c ∈ (trimEnd cs).getLast?, isBlank c = false := by
  rw [trimEnd_eq, List.getLast?_reverse]
  exact head_trimStart cs.reverse

theorem trimEnd_of_last (h : ∀ c ∈ cs.getLast?, isBlank c = false) : trimEnd cs = cs := by
  rw [trimEnd_eq, trimStart_of_head, List.reverse_reverse]
  rwa [List.head?_reverse]

theorem exists_eq_append_trimStart (cs : List Char) :
    ∃ front, AllBlank front ∧ cs = front ++ trimStart cs :=
  ⟨cs.takeWhile isBlank, fun _ hc => List.mem_takeWhile_imp hc,
    List.takeWhile_append_dropWhile.symm⟩

theorem exists_eq_trimEnd_append (cs : List Char) :
    ∃ back, AllBlank back ∧ cs = trimEnd cs ++ back := by
  obtain ⟨front, hfront, hcs⟩ := exists_eq_append_trimStart cs.reverse
  refine ⟨front.reverse, fun c hc => hfront c (List.mem_reverse.1 hc), ?_⟩
  rw [trimEnd_eq, ← List.reverse_append, ← hcs, List.reverse_reverse]

theorem trimStart_append (hfront : AllBlank front) (cs : List Char) :
    trimStart (front ++ cs) = trimStart cs :=
  List.dropWhile_append_of_pos hfront

theorem trimEnd_append (hback : AllBlank back) (cs : List Char) :
    trimEnd (cs ++ back) = trimEnd cs := by
  rw [trimEnd_eq, trimEnd_eq, List.reverse_append, trimStart_append]
  exact fun c hc => hback c (List.mem_reverse.1 hc)

theorem trimmed_trim (cs : List Char) : Trimmed cs (trim cs) := by
  obtain ⟨front, hfront, hcs⟩ := exists_eq_append_trimStart cs
  obtain ⟨back, hback, hrest⟩ := exists_eq_trimEnd_append (trimStart cs)
  refine ⟨⟨front, back, hfront, hback, ?_⟩, fun c hc => ?_, last_trimEnd _⟩
  · rw [List.append_assoc, trim, ← hrest, ← hcs]
  · apply head_trimStart cs c
    rw [hrest, List.head?_append]
    rw [show (trimEnd (trimStart cs)).head? = some c from hc]
    rfl

/-- A text without blanks is its own core. -/
theorem trimmed_self (h : ∀ c ∈ cs, isBlank c = false) : Trimmed cs cs := by
  refine ⟨⟨[], [], nofun, nofun, ?_⟩, fun c hc => ?_, fun c hc => ?_⟩
  · rw [List.nil_append, List.append_nil]
  · exact h c (List.mem_of_head? hc)
  · exact h c (List.mem_of_getLast? hc)

/-- A text has one core only. -/
theorem Trimmed.eq_trim (h : Trimmed cs core) : core = trim cs := by
  obtain ⟨front, back, hfront, hback, rfl⟩ := h.around
  rw [trim, List.append_assoc, trimStart_append hfront]
  cases core with
  | nil =>
    have hnone : trimStart back = [] := List.dropWhile_eq_nil_iff.2 hback
    rw [List.nil_append, hnone]
    rfl
  | cons c core =>
    have hhead : trimStart (c :: core ++ back) = c :: core ++ back := trimStart_of_head h.head
    rw [hhead, trimEnd_append hback, trimEnd_of_last h.last]

theorem Trimmed.blanks (h : Trimmed cs core) (hfront : AllBlank front) (hback : AllBlank back) :
    Trimmed (front ++ cs ++ back) core := by
  obtain ⟨front', back', hfront', hback', rfl⟩ := h.around
  refine ⟨⟨front ++ front', back' ++ back, hfront.append hfront', hback'.append hback, ?_⟩,
    h.head, h.last⟩
  simp only [List.append_assoc]

/-- What is put behind a text goes to the end of its core, blanks between and behind apart. -/
theorem Trimmed.exists_append (h : Trimmed cs core) (hcore : core ≠ []) (suffix : List Char) :
    ∃ front back more, AllBlank front ∧ AllBlank back ∧ cs = front ++ core ++ back ∧
      more <+: back ++ suffix ∧ Trimmed (cs ++ suffix) (core ++ more) := by
  obtain ⟨front, back, hfront, hback, hcs⟩ := h.around
  obtain ⟨rest, hrest, hmore⟩ := exists_eq_trimEnd_append (back ++ suffix)
  refine ⟨front, back, trimEnd (back ++ suffix), hfront, hback, hcs, ⟨rest, hmore.symm⟩,
    ⟨front, rest, hfront, hrest, ?_⟩, ?_, ?_⟩
  · calc cs ++ suffix = front ++ core ++ (back ++ suffix) := by simp [hcs]
      _ = front ++ core ++ (trimEnd (back ++ suffix) ++ rest) := by rw [← hmore]
      _ = front ++ (core ++ trimEnd (back ++ suffix)) ++ rest := by simp
  · cases core with
    | nil => exact absurd rfl hcore
    | cons c core => exact h.head
  · intro c hc
    rw [List.getLast?_append] at hc
    cases hlast : (trimEnd (back ++ suffix)).getLast? with
    | none =>
      rw [hlast] at hc
      exact h.last c hc
    | some d =>
      rw [hlast] at hc
      exact last_trimEnd _ c (hlast.trans hc)

end StorageUpgrade.Text
