import StorageUpgrade.LineDiff.Unified
import StorageUpgrade.Proofs.LineFeeds
import StorageUpgrade.Proofs.Views

/-!
# Removing the notes of a diff

The notes are searched in the running text, wherever a line begins, and a note that is found takes
its line end along. What is left is nevertheless what every line leaves on its own: nothing of a
note, and the whole line when no note stands at its beginning. In a diff each line of the compared
texts has a mark in front of it, so a label that looks like a note stays.
-/
namespace StorageUpgrade.LineDiff

namespace Line

/-- The line is a note, perhaps with a carriage return at its end. -/
def IsNote (l : Line) : Prop := l.text = incompleteNote ∨ l.text = incompleteNote ++ ['\r']

instance (l : Line) : Decidable l.IsNote := inferInstanceAs (Decidable (_ ∨ _))

/-- The line shows a line of one of the compared texts behind its mark. -/
def IsContent (l : Line) : Prop := ∃ mark ∈ [' ', '+', '-'], l.text.head? = some mark

instance (l : Line) : Decidable l.IsContent := List.decidableBEx _ _

/-- The line shows a line of one of the compared texts, or where the lines below it belong. -/
def IsMarked (l : Line) : Prop := ∃ mark ∈ [' ', '+', '-', '@'], l.text.head? = some mark

instance (l : Line) : Decidable l.IsMarked := List.decidableBEx _ _

/-- What is left of a line when a note is removed from its beginning. -/
def kept (l : Line) : List Char := l.chars.drop (noteLength l.chars)

/-- The line with a line feed. -/
def ended (l : Line) : Line := ⟨l.text, true⟩

end Line

variable {cs text rest : List Char} {l : Line} {ls : List Line} {diff : String} {α : Type}

theorem endLength_le (cs : List Char) : endLength cs ≤ cs.length := by
  unfold endLength
  split <;> simp

theorem endLength_line (h : '\n' ∉ text) (rest : List Char) :
    endLength (text ++ '\n' :: rest) = endLength (text ++ ['\n']) := by
  match text with
  | [] => rfl
  | [c] =>
    by_cases hc : c = '\r'
    · subst hc
      rfl
    · have hfeed : c ≠ '\n' := fun hc => h (by simp [hc])
      simp [endLength, hc, hfeed]
  | c :: d :: text =>
    have hc : c ≠ '\n' := fun hc => h (by simp [hc])
    have hd : d ≠ '\n' := fun hd => h (by simp [hd])
    by_cases hr : c = '\r'
    · subst hr
      simp [endLength, hd]
    · simp [endLength, hr, hc]

theorem noteLength_note (cs : List Char) :
    noteLength (incompleteNote ++ cs) = incompleteNote.length + endLength cs := by
  have hfront : incompleteNote.isPrefixOf (incompleteNote ++ cs) = true :=
    List.isPrefixOf_iff_prefix.2 (List.prefix_append _ _)
  rw [noteLength, if_pos hfront, List.drop_left]

theorem noteLength_eq_zero (h : ¬ incompleteNote <+: cs) : noteLength cs = 0 := by
  rw [noteLength, if_neg (mt List.isPrefixOf_iff_prefix.1 h)]

theorem not_noteFront_of_head? (h : cs.head? ≠ some '\\') : ¬ incompleteNote <+: cs := by
  rintro ⟨rest, rfl⟩
  exact h rfl

theorem noteLength_le (cs : List Char) : noteLength cs ≤ cs.length := by
  by_cases h : incompleteNote <+: cs
  · obtain ⟨rest, rfl⟩ := h
    rw [noteLength_note, List.length_append]
    exact Nat.add_le_add_left (endLength_le rest) _
  · rw [noteLength_eq_zero h]
    exact Nat.zero_le _

/-- A note does not reach beyond a line feed. -/
theorem prefix_line_iff :
    incompleteNote <+: text ++ '\n' :: rest ↔ incompleteNote <+: text := by
  refine ⟨fun h => ?_, fun h => h.trans (List.prefix_append _ _)⟩
  rcases Nat.lt_or_ge text.length incompleteNote.length with hlt | hle
  · have hfeed : text ++ ['\n'] <+: incompleteNote := by
      apply List.prefix_of_prefix_length_le _ h
      · rw [List.length_append, List.length_singleton]
        exact hlt
      · exact ⟨rest, by simp⟩
    have hmem : '\n' ∈ incompleteNote := hfeed.subset (by simp)
    exact absurd hmem (by decide)
  · exact List.prefix_of_prefix_length_le h (List.prefix_append _ _) hle

theorem noteLength_line (h : '\n' ∉ text) (rest : List Char) :
    noteLength (text ++ '\n' :: rest) = noteLength (text ++ ['\n']) := by
  by_cases hnote : incompleteNote <+: text
  · obtain ⟨more, rfl⟩ := hnote
    have hmore : '\n' ∉ more := fun hc => h (List.mem_append_right _ hc)
    rw [List.append_assoc, List.append_assoc, noteLength_note, noteLength_note,
      endLength_line hmore]
  · rw [noteLength_eq_zero (mt prefix_line_iff.1 hnote),
      noteLength_eq_zero (mt prefix_line_iff.1 hnote)]

/-- At the beginning of a line a note is skipped. -/
theorem withoutNotes_fresh (cs : List Char) :
    withoutNotes 0 true cs = withoutNotes (noteLength cs) false cs := by
  cases cs with
  | nil => simp [withoutNotes]
  | cons c cs =>
    cases h : noteLength (c :: cs) with
    | zero => simp [withoutNotes, h]
    | succ n => simp [withoutNotes, h]

/-- Within the last line characters are skipped and then kept. -/
theorem withoutNotes_skip (n : Nat) (h : '\n' ∉ cs) : withoutNotes n false cs = cs.drop n := by
  induction cs generalizing n with
  | nil => simp [withoutNotes]
  | cons c cs ih =>
    obtain ⟨hc, hcs⟩ := not_or.1 (mt List.mem_cons.2 h)
    cases n with
    | zero => simp [withoutNotes, Ne.symm hc, ih 0 hcs]
    | succ n => simp [withoutNotes, Ne.symm hc, ih n hcs]

/-- Within a line characters are skipped and then kept, and a new line begins behind it. -/
theorem withoutNotes_skip_line {n : Nat} (h : '\n' ∉ text) (hn : n ≤ (text ++ ['\n']).length)
    (rest : List Char) : withoutNotes n false (text ++ '\n' :: rest) =
      (text ++ ['\n']).drop n ++ withoutNotes 0 true rest := by
  induction text generalizing n with
  | nil =>
    cases n with
    | zero => simp [withoutNotes]
    | succ n =>
      obtain rfl : n = 0 := by simpa using hn
      simp [withoutNotes]
  | cons c cs ih =>
    obtain ⟨hc, hcs⟩ := not_or.1 (mt List.mem_cons.2 h)
    cases n with
    | zero => simp [withoutNotes, Ne.symm hc, ih hcs (Nat.zero_le _)]
    | succ n => simp [withoutNotes, Ne.symm hc, ih hcs (Nat.le_of_succ_le_succ hn)]

/-- The notes of a text are removed line by line. -/
theorem withoutNotes_eq (cs : List Char) :
    withoutNotes 0 true cs = (linesOf cs).flatMap Line.kept := by
  induction cs using lines_induction with
  | last cs h =>
    by_cases hne : cs = []
    · rw [hne]
      rfl
    · rw [withoutNotes_fresh, withoutNotes_skip _ h, linesOf_of_not_mem hne h,
        List.flatMap_singleton]
      rfl
  | line text rest h ih =>
    rw [withoutNotes_fresh, noteLength_line h, withoutNotes_skip_line h (noteLength_le _), ih,
      linesOf_line h, List.flatMap_cons]
    rfl

namespace Line

theorem kept_of_isNote (h : l.IsNote) : l.kept = [] := by
  obtain ⟨text, complete⟩ := l
  obtain rfl | rfl : text = incompleteNote ∨ text = incompleteNote ++ ['\r'] := h <;>
    cases complete <;> rfl

theorem kept_eq_chars (h : ¬ incompleteNote <+: l.text) : l.kept = l.chars := by
  obtain ⟨text, complete⟩ := l
  have hzero : noteLength (chars ⟨text, complete⟩) = 0 := by
    cases complete with
    | true => exact noteLength_eq_zero (mt prefix_line_iff.1 h)
    | false => exact noteLength_eq_zero h
  rw [kept, hzero, List.drop_zero]

/-- A line with a mark does not begin like a note. -/
theorem IsMarked.not_noteFront (h : l.IsMarked) : ¬ incompleteNote <+: l.text := by
  obtain ⟨mark, hmark, hhead⟩ := h
  apply not_noteFront_of_head?
  rw [hhead]
  rintro ⟨⟩
  exact absurd hmark (by decide)

theorem IsContent.isMarked (h : l.IsContent) : l.IsMarked := by
  obtain ⟨mark, hmark, hhead⟩ := h
  exact ⟨mark, List.mem_append_left ['@'] hmark, hhead⟩

theorem IsNote.noteFront (h : l.IsNote) : incompleteNote <+: l.text := by
  rcases h with h | h <;> rw [h]
  exact List.prefix_append _ _

end Line

/-- Each line is a note or does not begin like one. -/
def NotesApart (diff : String) : Prop :=
  ∀ l ∈ linesOf diff.toList, l.IsNote ∨ ¬ incompleteNote <+: l.text

instance (diff : String) : Decidable (NotesApart diff) :=
  inferInstanceAs (Decidable (∀ l ∈ linesOf diff.toList, _))

/-- The lines that are not notes. -/
def otherLines (ls : List Line) : List Line := ls.filter fun l => ¬ l.IsNote

theorem otherLines_otherLines (ls : List Line) : otherLines (otherLines ls) = otherLines ls := by
  unfold otherLines
  rw [List.filter_filter]
  simp only [Bool.and_self]

theorem flatMap_kept (h : ∀ l ∈ ls, l.IsNote ∨ ¬ incompleteNote <+: l.text) :
    ls.flatMap Line.kept = (otherLines ls).flatMap Line.chars := by
  unfold otherLines
  induction ls with
  | nil => rfl
  | cons l ls ih =>
    have hrest := ih fun k hk => h k (.tail _ hk)
    by_cases hnote : l.IsNote
    · rw [List.flatMap_cons, Line.kept_of_isNote hnote, hrest,
        List.filter_cons_of_neg (by simpa using hnote)]
      rfl
    · have hkept := Line.kept_eq_chars ((h l (.head _)).resolve_left hnote)
      rw [List.flatMap_cons, hkept, hrest, List.filter_cons_of_pos (by simpa using hnote),
        List.flatMap_cons]

/-- Removing the notes leaves the other lines as they are, with their line feeds. -/
structure RemovesNotesOnly (diff : String) : Prop where
  text_eq : clean diff =
    String.ofList ((otherLines (linesOf diff.toList)).flatMap Line.chars)
  lines_eq : linesOf (clean diff).toList = otherLines (linesOf diff.toList)
  content_eq : (linesOf (clean diff).toList).filter (fun l => l.IsContent) =
    (linesOf diff.toList).filter fun l => l.IsContent
  again : clean (clean diff) = clean diff

theorem clean_eq (h : NotesApart diff) : clean diff =
    String.ofList ((otherLines (linesOf diff.toList)).flatMap Line.chars) := by
  rw [clean, withoutNotes_eq, flatMap_kept h]

theorem linesOf_clean (h : NotesApart diff) :
    linesOf (clean diff).toList = otherLines (linesOf diff.toList) := by
  rw [clean_eq h, String.toList_ofList]
  exact ((areLines_linesOf _).filter _).linesOf_flatMap

/-- A line with a mark is no note, so it is among the lines that are left. -/
theorem filter_isContent (ls : List Line) :
    (otherLines ls).filter (fun l => l.IsContent) = ls.filter fun l => l.IsContent := by
  rw [otherLines, List.filter_filter]
  apply List.filter_congr
  intro l _
  by_cases h : l.IsContent
  · simp [h, mt Line.IsNote.noteFront h.isMarked.not_noteFront]
  · simp [h]

theorem removesNotesOnly (h : NotesApart diff) : RemovesNotesOnly diff where
  text_eq := clean_eq h
  lines_eq := linesOf_clean h
  content_eq := by rw [linesOf_clean h, filter_isContent]
  again := by
    have hagain : NotesApart (clean diff) := by
      intro l hl
      rw [linesOf_clean h] at hl
      obtain ⟨hmem, hnote⟩ := List.mem_filter.1 hl
      exact h l hmem
    rw [clean_eq hagain, linesOf_clean h, clean_eq h, otherLines_otherLines]

/-- Whole lines of a diff, with the notes apart, and what is left of them without the notes. -/
structure Leaves (cs out : List Char) : Prop where
  whole : WholeLines cs
  apart : ∀ l ∈ linesOf cs, l.IsNote ∨ ¬ incompleteNote <+: l.text
  eq : withoutNotes 0 true cs = out

theorem withoutNotes_append {front : List Char} (h : WholeLines front) (rest : List Char) :
    withoutNotes 0 true (front ++ rest) = withoutNotes 0 true front ++ withoutNotes 0 true rest := by
  rw [withoutNotes_eq, linesOf_append h, List.flatMap_append, ← withoutNotes_eq, ← withoutNotes_eq]

theorem leaves_nil : Leaves [] [] := ⟨wholeLines_nil, nofun, rfl⟩

theorem Leaves.append {front frontOut restOut : List Char} (hfront : Leaves front frontOut)
    (hrest : Leaves rest restOut) : Leaves (front ++ rest) (frontOut ++ restOut) where
  whole := hfront.whole.append hrest.whole
  apart := by
    rw [linesOf_append hfront.whole]
    exact List.forall_mem_append.2 ⟨hfront.apart, hrest.apart⟩
  eq := by rw [withoutNotes_append hfront.whole, hfront.eq, hrest.eq]

theorem leaves_flatMap {f g : α → List Char} {as : List α} (h : ∀ a ∈ as, Leaves (f a) (g a)) :
    Leaves (as.flatMap f) (as.flatMap g) := by
  induction as with
  | nil => exact leaves_nil
  | cons a as ih =>
    rw [List.flatMap_cons, List.flatMap_cons]
    exact (h a (.head _)).append (ih fun b hb => h b (.tail _ hb))

theorem leaves_line (htext : '\n' ∉ text) (hnote : ¬ incompleteNote <+: text) :
    Leaves (text ++ ['\n']) (text ++ ['\n']) := by
  have hlines : linesOf (text ++ ['\n']) = [⟨text, true⟩] := linesOf_line htext []
  have hkept : Line.kept ⟨text, true⟩ = text ++ ['\n'] := Line.kept_eq_chars hnote
  refine ⟨wholeLines_feed text, ?_, ?_⟩
  · rw [hlines]
    exact List.forall_mem_singleton.2 (.inr hnote)
  · rw [withoutNotes_eq, hlines, List.flatMap_singleton, hkept]

/-- A line is kept when its beginning is not that of a note. -/
theorem leaves_text (start : String) (mark : Char) {more : String} (hstart : Text.OneLine start)
    (hmore : Text.OneLine more) (hhead : start.toList.head? = some mark) (hmark : mark ≠ '\\') :
    Leaves ((start ++ more).toList ++ ['\n']) ((start ++ more).toList ++ ['\n']) := by
  apply leaves_line (hstart.append hmore)
  apply not_noteFront_of_head?
  rw [String.toList_append, List.head?_append, hhead]
  simpa using hmark

theorem leaves_note : Leaves (incompleteNote ++ ['\n']) [] := by
  have hlines : linesOf (incompleteNote ++ ['\n']) = [⟨incompleteNote, true⟩] :=
    linesOf_line (by decide) []
  refine ⟨wholeLines_feed _, ?_, ?_⟩
  · rw [hlines]
    exact List.forall_mem_singleton.2 (.inl (.inl rfl))
  · rw [withoutNotes_eq, hlines, List.flatMap_singleton]
    exact Line.kept_of_isNote (.inl rfl)

/-- A line of a text stays, the note behind it goes. -/
theorem leaves_lineText {mark : Char} (hmark : mark ∈ [' ', '+', '-']) (hl : '\n' ∉ l.text) :
    Leaves (lineText mark l) (lineText mark l.ended) := by
  have hcontent : Line.IsContent ⟨mark :: l.text, true⟩ := ⟨mark, hmark, rfl⟩
  have hfeed : '\n' ∉ mark :: l.text := by
    refine List.not_mem_cons_of_ne_of_not_mem ?_ hl
    rintro rfl
    exact absurd hmark (by decide)
  have hline := leaves_line hfeed hcontent.isMarked.not_noteFront
  unfold lineText
  cases l.complete with
  | true => simpa [Line.ended] using hline.append leaves_nil
  | false => simpa [Line.ended] using hline.append leaves_note

theorem leaves_slice (mark : Char) (first count : Nat) (hmark : mark ∈ [' ', '+', '-'])
    (hls : ∀ l ∈ ls, '\n' ∉ l.text) :
    Leaves (((ls.drop first).take count).flatMap (lineText mark))
      ((((ls.map Line.ended).drop first).take count).flatMap (lineText mark)) := by
  rw [← List.map_drop, ← List.map_take, List.flatMap_map]
  apply leaves_flatMap
  intro l hl
  exact leaves_lineText hmark (hls l (List.mem_of_mem_drop (List.mem_of_mem_take hl)))

section Hunks

variable {old new : List Line}

theorem leaves_hunkBody (hold : ∀ l ∈ old, '\n' ∉ l.text) (hnew : ∀ l ∈ new, '\n' ∉ l.text)
    (last i : Nat) (es : List Edit) : Leaves (hunkBody old new last i es)
      (hunkBody (old.map Line.ended) (new.map Line.ended) last i es) := by
  induction es generalizing i with
  | nil => exact leaves_slice ' ' i (last - i) (by decide) hold
  | cons e es ih =>
    have hcontext := leaves_slice ' ' i (e.oldLine - i) (by decide) hold
    have hdeleted := leaves_slice '-' e.oldLine e.deleted (by decide) hold
    have hinserted := leaves_slice '+' e.newLine e.inserted (by decide) hnew
    exact ((hcontext.append hdeleted).append hinserted).append (ih _)

theorem oneLine_rangeText (first count : Nat) : Text.OneLine (rangeText first count) := by
  have hzero : Text.OneLine ",0" := by decide
  have hcomma : Text.OneLine "," := by decide
  unfold rangeText
  split_ifs
  · exact (Text.oneLine_decimal first).append hzero
  · exact Text.oneLine_decimal (first + 1)
  · exact ((Text.oneLine_decimal (first + 1)).append hcomma).append (Text.oneLine_decimal count)

theorem leaves_hunkHead (oldFirst oldCount newFirst newCount : Nat) :
    Leaves ("@@ -" ++ rangeText oldFirst oldCount ++ " +" ++
        rangeText newFirst newCount ++ " @@\n").toList
      ("@@ -" ++ rangeText oldFirst oldCount ++ " +" ++
        rangeText newFirst newCount ++ " @@\n").toList := by
  have hplus : Text.OneLine " +" := by decide
  have hclose : Text.OneLine " @@" := by decide
  have hold := oneLine_rangeText oldFirst oldCount
  have hnew := oneLine_rangeText newFirst newCount
  have hline := leaves_text "@@ -" '@' (by decide) (((hold.append hplus).append hnew).append hclose)
    (by decide) (by decide)
  simpa [String.toList_append] using hline

theorem leaves_hunkText (hold : ∀ l ∈ old, '\n' ∉ l.text) (hnew : ∀ l ∈ new, '\n' ∉ l.text)
    (context : Nat) (hunk : List Edit) : Leaves (hunkText context old new hunk)
      (hunkText context (old.map Line.ended) (new.map Line.ended) hunk) := by
  unfold hunkText
  split
  · simp only [List.length_map]
    exact (leaves_hunkHead _ _ _ _).append (leaves_hunkBody hold hnew _ _ _)
  · exact leaves_nil

end Hunks

/-- The hunks of two texts are left as if every line had a line feed. -/
theorem leaves_hunksText (context : Nat) (old new : String) :
    Leaves (hunksText context (linesOf old.toList) (linesOf new.toList))
      ((hunksOf context (linesOf old.toList) (linesOf new.toList)).flatMap
        (hunkText context ((linesOf old.toList).map Line.ended)
          ((linesOf new.toList).map Line.ended))) :=
  leaves_flatMap fun hunk _ => leaves_hunkText (areLines_linesOf old.toList).feedless
    (areLines_linesOf new.toList).feedless context hunk

theorem wholeLines_head (oldLabel newLabel : String) :
    WholeLines (head oldLabel newLabel).toList := by
  rw [head, String.toList_append]
  exact wholeLines_feed _

theorem leaves_head {oldLabel newLabel : String} (hold : Text.OneLine oldLabel)
    (hnew : Text.OneLine newLabel) :
    Leaves (head oldLabel newLabel).toList (head oldLabel newLabel).toList := by
  have hfirst := leaves_text "--- " '-' (by decide) hold (by decide) (by decide)
  have hsecond := leaves_text "+++ " '+' (by decide) hnew (by decide) (by decide)
  simpa [head] using hfirst.append hsecond

/-- Removing the notes of a diff leaves its head, and the hunks as if every line had a line feed. -/
theorem clean_annotated (oldLabel newLabel : String) (context : Nat) (old new : String) :
    clean (annotated oldLabel newLabel context old new) =
      clean (head oldLabel newLabel) ++ String.ofList
        ((hunksOf context (linesOf old.toList) (linesOf new.toList)).flatMap
          (hunkText context ((linesOf old.toList).map Line.ended)
            ((linesOf new.toList).map Line.ended))) := by
  rw [clean, clean, annotated, String.toList_append, String.toList_ofList,
    withoutNotes_append (wholeLines_head _ _), (leaves_hunksText context old new).eq,
    String.ofList_append]

theorem notesApart_annotated {oldLabel newLabel : String} (hold : Text.OneLine oldLabel)
    (hnew : Text.OneLine newLabel) (context : Nat) (old new : String) :
    NotesApart (annotated oldLabel newLabel context old new) := by
  unfold NotesApart annotated
  rw [String.toList_append, String.toList_ofList]
  exact ((leaves_head hold hnew).append (leaves_hunksText context old new)).apart

/-- Removing the notes of a diff removes nothing else, whatever the compared texts hold. If each
line is a note or does not begin like one, the other lines stay as they are, and so it is when each
line is a note or has a mark in front. A diff whose labels are on one line is such a text, and the
hunks of any diff stay as if no line feed were missing. -/
theorem clean_removes_notes_only :
    (∀ diff, NotesApart diff → RemovesNotesOnly diff) ∧
      (∀ diff : String, (∀ l ∈ linesOf diff.toList, l.IsNote ∨ l.IsMarked) →
        RemovesNotesOnly diff) ∧
      ∀ (oldLabel newLabel : String) (context : Nat) (old new : String),
        (Text.OneLine oldLabel → Text.OneLine newLabel →
          RemovesNotesOnly (annotated oldLabel newLabel context old new)) ∧
        clean (annotated oldLabel newLabel context old new) =
          clean (head oldLabel newLabel) ++ String.ofList
            ((hunksOf context (linesOf old.toList) (linesOf new.toList)).flatMap
              (hunkText context ((linesOf old.toList).map Line.ended)
                ((linesOf new.toList).map Line.ended))) := by
  refine ⟨fun diff => removesNotesOnly, fun diff h => ?_,
    fun oldLabel newLabel context old new => ⟨?_, ?_⟩⟩
  · exact removesNotesOnly fun l hl => (h l hl).imp_right Line.IsMarked.not_noteFront
  · intro hold hnew
    exact removesNotesOnly (notesApart_annotated hold hnew context old new)
  · exact clean_annotated oldLabel newLabel context old new

/-- Notes at the beginning, one behind the other and without a line end, and a removed line that
looks like one. -/
def sampleDiff : List Line :=
  [⟨incompleteNote ++ ['\r'], true⟩, ⟨"--- a".toList, true⟩, ⟨incompleteNote, true⟩,
    ⟨incompleteNote, true⟩, ⟨'-' :: incompleteNote, true⟩, ⟨"+y".toList, true⟩,
    ⟨incompleteNote, false⟩]

/-- Three lines of the sample are left, and the diff of two texts like it keeps what it shows. -/
theorem clean_removes_notes_only_sample :
    NotesApart (String.ofList (sampleDiff.flatMap Line.chars)) ∧
      clean (String.ofList (sampleDiff.flatMap Line.chars)) = String.ofList
        ("--- a\n".toList ++ '-' :: incompleteNote ++ ['\n'] ++ "+y\n".toList) ∧
      RemovesNotesOnly (annotated "a" "b" 3 (String.ofList (sampleDiff.flatMap Line.chars)) "y") := by
  obtain ⟨_, hmarked, hdiff⟩ := clean_removes_notes_only
  have hlines : linesOf (String.ofList (sampleDiff.flatMap Line.chars)).toList = sampleDiff := by
    rw [String.toList_ofList]
    exact AreLines.linesOf_flatMap ⟨by decide, by decide, by decide⟩
  have hapart : NotesApart (String.ofList (sampleDiff.flatMap Line.chars)) := by
    rw [NotesApart, hlines]
    decide
  refine ⟨hapart, ?_, (hdiff "a" "b" 3 _ _).1 (by decide) (by decide)⟩
  have hremoves := hmarked (String.ofList (sampleDiff.flatMap Line.chars)) <| by
    rw [hlines]
    decide
  rw [hremoves.text_eq, hlines]
  rfl

end StorageUpgrade.LineDiff
