import StorageUpgrade.LineDiff.Lines
import StorageUpgrade.Proofs.Pieces

/-!
# Lines and their line feeds

A text is cut into its lines in one way: no line holds a line feed, and every line has one behind it
except perhaps the last, which is then not empty. Where a text ends with a line feed another text
may follow, and the lines of both stay what they were.
-/
namespace StorageUpgrade.LineDiff

namespace Line

/-- The line as it stands in its text, with the line feed that ends it. -/
def chars (l : Line) : List Char := if l.complete then l.text ++ ['\n'] else l.text

@[simp] theorem chars_complete (cs : List Char) : chars ⟨cs, true⟩ = cs ++ ['\n'] := rfl

@[simp] theorem chars_incomplete (cs : List Char) : chars ⟨cs, false⟩ = cs := rfl

end Line

/-- What the lines of a text are like. -/
structure AreLines (ls : List Line) : Prop where
  feedless : ∀ l ∈ ls, '\n' ∉ l.text
  filled : ∀ l ∈ ls, l.text = [] → l.complete = true
  complete : ls.Pairwise fun l _ => l.complete = true

/-- The text is empty or ends with a line feed. -/
def WholeLines (cs : List Char) : Prop := ∀ c ∈ cs.getLast?, c = '\n'

variable {cs text front rest : List Char} {ls : List Line}

@[simp] theorem linesOf_nil : linesOf [] = [] := rfl

theorem linesOf_of_not_mem (hne : cs ≠ []) (h : '\n' ∉ cs) : linesOf cs = [⟨cs, false⟩] := by
  rw [linesOf, Text.splitOn_of_not_mem h]
  simp [markLines, hne]

theorem linesOf_line (h : '\n' ∉ text) (rest : List Char) :
    linesOf (text ++ '\n' :: rest) = ⟨text, true⟩ :: linesOf rest := by
  have hcut : Text.splitOn '\n' (text ++ '\n' :: rest) = text :: Text.splitOn '\n' rest := by
    rw [Text.splitOn_eq, List.splitOn_append_cons_self, List.splitOn_eq_singleton h,
      Text.splitOn_eq, List.singleton_append]
  obtain ⟨piece, pieces, hrest⟩ : ∃ piece pieces, Text.splitOn '\n' rest = piece :: pieces :=
    List.exists_cons_of_ne_nil (Text.splitOn_eq '\n' rest ▸ List.splitOn_ne_nil '\n' rest)
  rw [linesOf, hcut, linesOf, hrest]
  rfl

/-- A text is a last line without a line feed, or a line in front of another text. -/
@[elab_as_elim]
theorem lines_induction {P : List Char → Prop} (last : ∀ cs, '\n' ∉ cs → P cs)
    (line : ∀ text rest, '\n' ∉ text → P rest → P (text ++ '\n' :: rest)) (cs : List Char) :
    P cs := by
  -- The induction runs over characters, so it carries the line that has been begun.
  suffices h : ∀ begun, '\n' ∉ begun → P (begun ++ cs) from h [] List.not_mem_nil
  induction cs with
  | nil =>
    intro begun h
    rw [List.append_nil]
    exact last begun h
  | cons c cs ih =>
    intro begun h
    by_cases hc : c = '\n'
    · subst hc
      exact line begun cs h (ih [] List.not_mem_nil)
    · have hmore := ih (begun ++ [c]) (by simp [h, Ne.symm hc])
      rwa [List.append_assoc, List.singleton_append] at hmore

/-- The lines of a text with their line feeds make up the text. -/
theorem flatMap_chars_linesOf (cs : List Char) : (linesOf cs).flatMap Line.chars = cs := by
  induction cs using lines_induction with
  | last cs h =>
    by_cases hne : cs = []
    · rw [hne]
      rfl
    · simp [linesOf_of_not_mem hne h]
  | line text rest h ih => simp [linesOf_line h, ih]

theorem linesOf_eq_nil_iff : linesOf cs = [] ↔ cs = [] := by
  refine ⟨fun h => ?_, fun h => h ▸ rfl⟩
  rw [← flatMap_chars_linesOf cs, h]
  rfl

theorem areLines_nil : AreLines [] := ⟨nofun, nofun, .nil⟩

theorem AreLines.line (hls : AreLines ls) (h : '\n' ∉ text) : AreLines (⟨text, true⟩ :: ls) where
  feedless := List.forall_mem_cons.2 ⟨h, hls.feedless⟩
  filled := List.forall_mem_cons.2 ⟨fun _ => rfl, hls.filled⟩
  complete := .cons (fun _ _ => rfl) hls.complete

theorem areLines_linesOf (cs : List Char) : AreLines (linesOf cs) := by
  induction cs using lines_induction with
  | last cs h =>
    by_cases hne : cs = []
    · rw [hne]
      exact areLines_nil
    · rw [linesOf_of_not_mem hne h]
      exact ⟨by simpa using h, by simpa using hne, List.pairwise_singleton _ _⟩
  | line text rest h ih =>
    rw [linesOf_line h]
    exact ih.line h

theorem AreLines.filter (hls : AreLines ls) (p : Line → Bool) : AreLines (ls.filter p) where
  feedless := fun l hl => hls.feedless l ((List.mem_filter.1 hl).1)
  filled := fun l hl => hls.filled l ((List.mem_filter.1 hl).1)
  complete := hls.complete.filter p

/-- Lines that are put one after the other are the lines of the text they make up. -/
theorem AreLines.linesOf_flatMap (hls : AreLines ls) : linesOf (ls.flatMap Line.chars) = ls := by
  induction ls with
  | nil => rfl
  | cons l ls ih =>
    have hl : '\n' ∉ l.text := hls.feedless l (.head _)
    have hrest : AreLines ls := ⟨fun k hk => hls.feedless k (.tail _ hk),
      fun k hk => hls.filled k (.tail _ hk), hls.complete.of_cons⟩
    obtain ⟨text, complete⟩ := l
    cases complete with
    | true => simp [linesOf_line hl, ih hrest]
    | false =>
      have hnil : ls = [] := by
        refine List.eq_nil_iff_forall_not_mem.2 fun k hk => ?_
        exact Bool.noConfusion (List.rel_of_pairwise_cons hls.complete hk)
      have hne : text ≠ [] := fun h => Bool.noConfusion (hls.filled _ (.head _) h)
      simp [hnil, linesOf_of_not_mem hne hl]

theorem wholeLines_nil : WholeLines [] := nofun

theorem wholeLines_feed (cs : List Char) : WholeLines (cs ++ ['\n']) := by
  simp [WholeLines]

theorem WholeLines.append (hfront : WholeLines front) (hrest : WholeLines rest) :
    WholeLines (front ++ rest) := by
  intro c hc
  rw [List.getLast?_append] at hc
  cases hlast : rest.getLast? with
  | none =>
    rw [hlast] at hc
    exact hfront c hc
  | some d =>
    rw [hlast] at hc
    exact hrest c (hlast.trans hc)

/-- Behind a line feed a new text may begin. -/
theorem linesOf_append (hfront : WholeLines front) (rest : List Char) :
    linesOf (front ++ rest) = linesOf front ++ linesOf rest := by
  induction front using lines_induction with
  | last cs h =>
    have hnil : cs = [] := by
      rw [← List.getLast?_eq_none_iff, Option.eq_none_iff_forall_ne_some]
      intro c hc
      exact h (hfront c hc ▸ List.mem_of_getLast? hc)
    rw [hnil]
    rfl
  | line text more h ih =>
    have hmore : WholeLines more := by
      intro c hc
      apply hfront c
      rw [List.getLast?_append, List.getLast?_cons, show more.getLast? = some c from hc]
      rfl
    rw [List.append_assoc, List.cons_append, linesOf_line h, linesOf_line h, ih hmore,
      List.cons_append]

end StorageUpgrade.LineDiff
