import StorageUpgrade.Proofs.Decimal
import StorageUpgrade.Text.Lines

/-!
# Pieces of a text

Pieces that are joined are found again by cutting the text at the separator, as long as no piece
holds it. A text that begins with characters of one kind is cut in one way where others begin, so a
number is read off it.
-/
namespace StorageUpgrade.Text

variable {sep : Char} {cs front last : List Char} {glue blank : String} {ss ts : List String}

theorem splitOn_eq (sep : Char) (cs : List Char) : splitOn sep cs = cs.splitOn sep := by
  induction cs with
  | nil => rfl
  | cons c cs ih =>
    rw [splitOn, ih, List.splitOn_cons_eq_if_modifyHead]
    cases h : cs.splitOn sep with
    | nil => exact absurd h (List.splitOn_ne_nil sep cs)
    | cons piece pieces => simp

theorem splitOn_of_not_mem (h : sep ∉ cs) : splitOn sep cs = [cs] := by
  rw [splitOn_eq]
  exact List.splitOn_eq_singleton h

theorem splitOn_append_cons (sep : Char) (front rest : List Char) :
    splitOn sep (front ++ sep :: rest) = splitOn sep front ++ splitOn sep rest := by
  rw [splitOn_eq, List.splitOn_append_cons_self, splitOn_eq, splitOn_eq]

/-- What follows the last separator is the last piece. -/
theorem splitOn_append (h : sep ∉ last) :
    splitOn sep (front ++ sep :: last) = splitOn sep front ++ [last] := by
  rw [splitOn_append_cons, splitOn_of_not_mem h]

theorem not_mem_of_mem_splitOn {piece : List Char} (h : piece ∈ splitOn sep cs) : sep ∉ piece := by
  induction cs generalizing piece with
  | nil =>
    rw [splitOn, List.mem_singleton] at h
    simp [h]
  | cons c cs ih =>
    by_cases hc : c = sep
    · rw [splitOn, if_pos hc] at h
      rcases List.mem_cons.1 h with rfl | h
      · exact List.not_mem_nil
      · exact ih h
    · rw [splitOn, if_neg hc] at h
      have hcons : ∀ {cs : List Char}, sep ∉ cs → sep ∉ c :: cs :=
        fun hcs => List.not_mem_cons_of_ne_of_not_mem (Ne.symm hc) hcs
      cases hrest : splitOn sep cs with
      | nil =>
        rw [hrest] at h
        obtain rfl := List.mem_singleton.1 h
        exact hcons List.not_mem_nil
      | cons first pieces =>
        rw [hrest] at h ih
        rcases List.mem_cons.1 h with rfl | h
        · exact hcons (ih (.head _))
        · exact ih (.tail _ h)

theorem exists_last_of_mem (h : sep ∈ cs) :
    ∃ front last, cs = front ++ sep :: last ∧ sep ∉ last := by
  obtain ⟨as, bs, heq, has⟩ := List.eq_append_cons_of_mem (List.mem_reverse.2 h)
  refine ⟨bs.reverse, as.reverse, ?_, mt List.mem_reverse.1 has⟩
  rw [← List.reverse_reverse cs, heq]
  simp

theorem toList_join_cons (glue s : String) (ss : List String) :
    (join glue (s :: ss)).toList = s.toList ++ ss.flatMap fun t => glue.toList ++ t.toList := by
  induction ss generalizing s with
  | nil => simp
  | cons t ss ih => simp [ih]

theorem toList_join_cons_cons (glue s t : String) (ss : List String) :
    (join glue (s :: t :: ss)).toList =
      s.toList ++ (glue.toList ++ (join glue (t :: ss)).toList) := by
  rw [join_cons_cons, String.toList_append, String.toList_append, List.append_assoc]

theorem toList_join (glue : String) (ss : List String) :
    (join glue ss).toList = glue.toList.intercalate (ss.map String.toList) := by
  induction ss with
  | nil => rfl
  | cons s ss ih =>
    cases ss with
    | nil => simp
    | cons t ss =>
      rw [List.map_cons] at ih
      rw [toList_join_cons_cons, ih, List.map_cons, List.map_cons, List.intercalate_cons_cons,
        List.append_assoc]

/-- Joined pieces are found again when none of them holds the separator. -/
theorem splitOn_join (hglue : glue.toList = [sep]) (hne : ss ≠ [])
    (h : ∀ s ∈ ss, sep ∉ s.toList) : splitOn sep (join glue ss).toList = ss.map String.toList := by
  rw [splitOn_eq, toList_join, hglue]
  apply List.splitOn_intercalate
  · simpa using h
  · simpa using hne

theorem lines_join (hne : ss ≠ []) (h : ∀ s ∈ ss, '\n' ∉ s.toList) :
    lines (join "\n" ss) = ss := by
  rw [lines, splitOn_join rfl hne h, List.map_map]
  simp

/-- What a separator ends with may as well begin the pieces behind it. -/
theorem join_append (glue blank s : String) (ss : List String) :
    join (glue ++ blank) (s :: ss) = join glue (s :: ss.map (blank ++ ·)) := by
  induction ss generalizing s with
  | nil => rfl
  | cons t ss ih =>
    rw [join_cons_cons, ih, List.map_cons, join_cons_cons]
    cases ss with
    | nil => simp [String.append_assoc]
    | cons u ss => simp [String.append_assoc]

/-- Different pieces are joined to different texts. -/
theorem join_inj (hglue : glue.toList = [sep]) (hblank : sep ∉ blank.toList) (hss : ss ≠ [])
    (hts : ts ≠ []) (hs : ∀ s ∈ ss, sep ∉ s.toList) (ht : ∀ t ∈ ts, sep ∉ t.toList) :
    join (glue ++ blank) ss = join (glue ++ blank) ts ↔ ss = ts := by
  refine ⟨fun h => ?_, fun h => h ▸ rfl⟩
  have hpieces : ∀ (s : String) (ss : List String), (∀ r ∈ s :: ss, sep ∉ r.toList) →
      splitOn sep (join (glue ++ blank) (s :: ss)).toList =
        (s :: ss.map (blank ++ ·)).map String.toList := by
    intro s ss hs
    rw [join_append]
    apply splitOn_join hglue (List.cons_ne_nil _ _)
    intro r hr
    rcases List.mem_cons.1 hr with rfl | hr
    · exact hs r (.head _)
    · obtain ⟨q, hq, rfl⟩ := List.mem_map.1 hr
      simp [hblank, hs q (.tail _ hq)]
  obtain ⟨s, ss, rfl⟩ := List.exists_cons_of_ne_nil hss
  obtain ⟨t, ts, rfl⟩ := List.exists_cons_of_ne_nil hts
  have heq := hpieces s ss hs
  rw [h, hpieces t ts ht, List.map_inj_right fun _ _ => String.toList_inj.1] at heq
  obtain ⟨rfl, htail⟩ := List.cons.inj heq
  rw [List.map_inj_right fun _ _ => (String.append_right_inj blank).1] at htail
  rw [htail]

/-- Where characters of a kind end and others begin, a text is cut in one way. -/
theorem run_eq_of_append {P : Char → Prop} {as bs cs ds : List Char} (ha : ∀ c ∈ as, P c)
    (hb : ∀ c ∈ bs, P c) (hc : ∀ c ∈ cs.head?, ¬ P c) (hd : ∀ c ∈ ds.head?, ¬ P c)
    (h : as ++ cs = bs ++ ds) : as = bs ∧ cs = ds := by
  induction as generalizing bs with
  | nil =>
    cases bs with
    | nil => exact ⟨rfl, h⟩
    | cons b bs =>
      rw [List.nil_append] at h
      subst h
      exact absurd (hb b (.head _)) (hc b rfl)
  | cons a as ih =>
    cases bs with
    | nil =>
      rw [List.nil_append] at h
      subst h
      exact absurd (ha a (.head _)) (hd a rfl)
    | cons b bs =>
      obtain ⟨rfl, htail⟩ := List.cons.inj h
      obtain ⟨rfl, rfl⟩ := ih (List.forall_mem_cons.1 ha).2 (List.forall_mem_cons.1 hb).2 htail
      exact ⟨rfl, rfl⟩

/-- A number is read off a text up to the first character that is no digit. -/
theorem decimal_eq_of_append {m n : Nat} {cs ds : List Char}
    (hc : ∀ c ∈ cs.head?, ¬ c.isDigit = true) (hd : ∀ c ∈ ds.head?, ¬ c.isDigit = true)
    (h : (toString m).toList ++ cs = (toString n).toList ++ ds) : m = n ∧ cs = ds := by
  rw [toList_toString, toList_toString] at h
  obtain ⟨hdigits, hrest⟩ := run_eq_of_append (P := fun c => c.isDigit = true)
    (fun c => isDigit_of_mem_decimal) (fun c => isDigit_of_mem_decimal) hc hd h
  refine ⟨?_, hrest⟩
  rw [← Nat.ofDigitChars_ten_toDigits (n := m), hdigits, Nat.ofDigitChars_ten_toDigits]

/-- The text stays on its line. -/
def OneLine (s : String) : Prop := '\n' ∉ s.toList

section OneLine

variable {s t sep : String}

instance (s : String) : Decidable (OneLine s) := inferInstanceAs (Decidable (¬ _))

theorem OneLine.append (hs : OneLine s) (ht : OneLine t) : OneLine (s ++ t) := by
  unfold OneLine at *
  simp [hs, ht]

theorem OneLine.padRight (size : Nat) (hs : OneLine s) : OneLine (padRight size s) := by
  unfold Text.padRight
  apply hs.append
  simp [OneLine]

theorem oneLine_decimal (n : Nat) : OneLine (toString n) := by
  intro h
  rw [toList_toString] at h
  have := isDigit_of_mem_decimal h
  contradiction

theorem oneLine_plural (n : Nat) : OneLine (plural n) := by
  unfold plural
  split <;> decide

theorem oneLine_join (hsep : OneLine sep) (h : ∀ s ∈ ss, OneLine s) : OneLine (join sep ss) := by
  induction ss with
  | nil =>
    rw [join_nil]
    decide
  | cons s ss ih =>
    obtain ⟨hs, hss⟩ := List.forall_mem_cons.1 h
    cases ss with
    | nil => exact hs
    | cons t ss => exact (hs.append hsep).append (ih hss)

/-- A text without line feeds is a single line. -/
theorem lines_of_oneLine (h : OneLine s) : lines s = [s] := by
  rw [lines, splitOn_of_not_mem h, List.map_singleton, String.ofList_toList]

/-- The lines of a joined text are those of its pieces. -/
theorem lines_join_eq_flatMap (hne : ss ≠ []) : lines (join "\n" ss) = ss.flatMap lines := by
  induction ss with
  | nil => exact absurd rfl hne
  | cons s ss ih =>
    cases ss with
    | nil => rw [join_singleton, List.flatMap_singleton]
    | cons t ss =>
      have hchars : (join "\n" (s :: t :: ss)).toList =
          s.toList ++ '\n' :: (join "\n" (t :: ss)).toList :=
        toList_join_cons_cons "\n" s t ss
      rw [List.flatMap_cons, ← ih (List.cons_ne_nil _ _), lines, hchars, splitOn_append_cons,
        List.map_append]
      rfl

end OneLine

end StorageUpgrade.Text
