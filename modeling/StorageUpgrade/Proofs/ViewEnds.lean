import StorageUpgrade.Proofs.Accounting
import StorageUpgrade.Proofs.LineFeeds
import StorageUpgrade.Proofs.Safety
import StorageUpgrade.Proofs.Views

/-!
# How the views end

A finding that has no old variable is an empty line of the old view. As the last line of the view
such a line is nothing but the line feed in front of it: the old view ends with a line feed, and
counted by its line ends it is one line short. This happens exactly when a finding stands behind the
start of every old variable. The new view has no empty line, so it is never short.
-/
namespace StorageUpgrade

namespace Text

variable {s : String} {ss : List String}

def EndsInFeed (s : String) : Prop := s.toList.getLast? = some '\n'

instance (s : String) : Decidable (EndsInFeed s) := inferInstanceAs (Decidable (_ = _))

/-- The number of lines as tools for lines count them: one for every line feed, and one more for
what stands behind the last of them. -/
def lineCount (s : String) : Nat :=
  s.toList.count '\n' + if s = "" ∨ EndsInFeed s then 0 else 1

theorem getLast?_line (text rest : List Char) :
    (text ++ '\n' :: rest).getLast? = some '\n' ↔ rest = [] ∨ rest.getLast? = some '\n' := by
  cases rest using List.reverseRecOn with
  | nil => simp
  | append_singleton rest c => simp [List.getLast?_append, List.getLast?_cons]

/-- The lines counted are those that a diff compares. -/
theorem length_linesOf (s : String) : (LineDiff.linesOf s.toList).length = lineCount s := by
  have hchars : ∀ cs : List Char, (LineDiff.linesOf cs).length =
      cs.count '\n' + if cs = [] ∨ cs.getLast? = some '\n' then 0 else 1 := by
    intro cs
    induction cs using LineDiff.lines_induction with
    | last cs h =>
      have hlast : cs.getLast? ≠ some '\n' := fun hc => h (List.mem_of_getLast? hc)
      by_cases hne : cs = []
      · simp [hne]
      · simp [LineDiff.linesOf_of_not_mem hne h, List.count_eq_zero_of_not_mem h, hne, hlast]
    | line text rest h ih =>
      rw [LineDiff.linesOf_line h, List.length_cons, ih, List.count_append, List.count_cons_self,
        List.count_eq_zero_of_not_mem h]
      simp only [getLast?_line, List.append_eq_nil_iff, reduceCtorEq, and_false, false_or]
      omega
  rw [hchars, lineCount, if_congr (or_congr String.toList_eq_nil_iff Iff.rfl) rfl rfl]
  rfl

/-- A text ends with a line feed when it has lines and all of them do. -/
theorem endsInFeed_iff : EndsInFeed s ↔ LineDiff.linesOf s.toList ≠ [] ∧
    ∀ l ∈ LineDiff.linesOf s.toList, l.complete = true := by
  unfold EndsInFeed
  induction s.toList using LineDiff.lines_induction with
  | last cs h =>
    have hlast : cs.getLast? ≠ some '\n' := fun hc => h (List.mem_of_getLast? hc)
    by_cases hne : cs = []
    · simp [hne]
    · simp [LineDiff.linesOf_of_not_mem hne h, hlast]
  | line text rest h ih =>
    rw [getLast?_line, ih, LineDiff.linesOf_line h, ne_eq, LineDiff.linesOf_eq_nil_iff]
    by_cases hrest : rest = []
    · simp [hrest]
    · simp [hrest]

/-- Joined lines are found again, an empty last one apart. -/
theorem linesOf_join_concat (h : ∀ t ∈ ss ++ [s], OneLine t) :
    LineDiff.linesOf (join "\n" (ss ++ [s])).toList =
      ss.map (fun t => ⟨t.toList, true⟩) ++ if s = "" then [] else [⟨s.toList, false⟩] := by
  induction ss with
  | nil =>
    by_cases hs : s = ""
    · simp [hs]
    · have hne : s.toList ≠ [] := mt String.toList_eq_nil_iff.1 hs
      simp [hs, LineDiff.linesOf_of_not_mem hne (h s (by simp))]
  | cons t ss ih =>
    have hrest := ih fun u hu => h u (.tail _ hu)
    obtain ⟨u, us, heq⟩ : ∃ u us, ss ++ [s] = u :: us := List.exists_cons_of_ne_nil (by simp)
    rw [heq] at hrest
    rw [List.cons_append, heq, toList_join_cons_cons]
    change LineDiff.linesOf (t.toList ++ '\n' :: (join "\n" (u :: us)).toList) = _
    rw [LineDiff.linesOf_line (h t (.head _)), hrest]
    rfl

theorem lineCount_join_concat (h : ∀ t ∈ ss ++ [s], OneLine t) :
    lineCount (join "\n" (ss ++ [s])) = ss.length + if s = "" then 0 else 1 := by
  rw [← length_linesOf, linesOf_join_concat h, List.length_append, List.length_map]
  split_ifs <;> rfl

theorem endsInFeed_join_concat (h : ∀ t ∈ ss ++ [s], OneLine t) :
    EndsInFeed (join "\n" (ss ++ [s])) ↔ s = "" ∧ ss ≠ [] := by
  rw [endsInFeed_iff, linesOf_join_concat h]
  by_cases hs : s = ""
  · simp [hs]
  · simp [hs]

end Text

/-- Behind the starts of all old variables a new variable starts, or it ends there and leaves bytes
of an old one behind it. -/
def OutrunsOld (old new : Layout) : Prop :=
  ∃ n ∈ new, (∀ o ∈ old, o.start < n.start) ∨
    (∀ o ∈ old, o.start < n.stop) ∧ ∃ o ∈ old, n.stop < o.stop

instance (old new : Layout) : Decidable (OutrunsOld old new) :=
  inferInstanceAs (Decidable (∃ n ∈ new, _))

variable {old new : Layout} {f : Finding} {fs gs : List Finding}

theorem outrunsOld_iff :
    OutrunsOld old new ↔ ∃ s, HasRow old new s ∧ ∀ o ∈ old, o.start < s := by
  constructor
  · rintro ⟨n, hn, hstart | ⟨hstop, o, ho, hleft⟩⟩
    · exact ⟨n.start, .inr (.inl ⟨n, hn, rfl⟩), hstart⟩
    · refine ⟨n.stop, .inr ?_, hstop⟩
      by_cases hnext : ∃ m ∈ new, m.start = n.stop
      · exact .inl hnext
      · exact .inr ⟨⟨n, hn, rfl⟩, ⟨o, ho, hstop o ho, hleft⟩, fun m hm h => hnext ⟨m, hm, h⟩⟩
  · rintro ⟨s, ⟨o, ho, rfl⟩ | ⟨n, hn, rfl⟩ | ⟨⟨n, hn, rfl⟩, ⟨o, ho, _, hleft⟩, _⟩, hbehind⟩
    · exact absurd (hbehind o ho) (lt_irrefl _)
    · exact ⟨n, hn, .inl hbehind⟩
    · exact ⟨n, hn, .inr ⟨hbehind, o, ho, hleft⟩⟩

/-- The last finding has no old variable when the findings go on behind the old variables. -/
theorem IsListing.last_old_eq_none_iff (hfs : IsListing old new (gs ++ [f])) :
    f.old = none ↔ OutrunsOld old new := by
  rw [outrunsOld_iff]
  have hlast : ∀ g ∈ gs ++ [f], g = f ∨ g.start < f.start := by
    intro g hg
    rcases List.mem_append.1 hg with hg | hg
    · exact .inr ((List.pairwise_append.1 hfs.ascending).2.2 g hg f List.mem_cons_self)
    · exact .inl (List.mem_singleton.1 hg)
  have hf : f ∈ gs ++ [f] := by simp
  constructor
  · intro hnone
    refine ⟨f.start, (hfs.hasRow_iff _).1 ⟨f, hf, rfl⟩, fun o ho => ?_⟩
    obtain ⟨g, hg, hview, hstart⟩ := mem_listedStarts_old.2 ⟨o, ho, rfl⟩
    rcases hlast g ((hfs.mem_iff g).2 hg) with rfl | hlt
    · rw [hnone] at hview
      contradiction
    · exact hstart ▸ hlt
  · rintro ⟨s, hrow, hbehind⟩
    by_contra hsome
    obtain ⟨g, hg, rfl⟩ := (hfs.hasRow_iff s).2 hrow
    obtain ⟨o, ho, hstart⟩ := mem_listedStarts_old.1
      ⟨f, (hfs.mem_iff f).1 hf, Option.isSome_iff_ne_none.2 hsome, rfl⟩
    have hlt : f.start < g.start := hstart ▸ hbehind o ho
    rcases hlast g hg with rfl | hgt
    · exact lt_irrefl _ hlt
    · exact lt_asymm hlt hgt

namespace Views

/-- Both views have so many lines, and none ends with a line feed. -/
structure Aligned (v : Views) (lines : Nat) : Prop where
  old_end : ¬ Text.EndsInFeed v.old
  new_end : ¬ Text.EndsInFeed v.new
  old_count : Text.lineCount v.old = lines
  new_count : Text.lineCount v.new = lines

theorem oldLine_eq_empty_iff : oldLine f = "" ↔ f.old = none := by
  unfold oldLine
  cases f.old with
  | none => simp
  | some v => exact iff_of_false (line_ne_empty .unchanged _ _ _ _) nofun

theorem newLine_ne_empty (hf : Listed old new f) : newLine f ≠ "" := by
  cases hf with
  | replaced =>
    rw [newLine_of_new _ _ _ replacedOutcome_ne_removed replacedOutcome_ne_dirtyByteRun]
    exact line_ne_empty _ _ _ _ _
  | removed =>
    change "🪦" ≠ ""
    decide
  | fresh =>
    rw [newLine_of_new _ _ _ freshOutcome_ne.2.1 freshOutcome_ne.2.2]
    exact line_ne_empty _ _ _ _ _
  | dirtyRun => exact line_ne_empty .dirtyByteRun _ _ _ _

/-- How the views of findings end. -/
structure EndsAs (v : Views) (fs : List Finding) (short : Prop) : Prop where
  new_end : ¬ Text.EndsInFeed v.new
  new_count : Text.lineCount v.new = fs.length
  old_end : Text.EndsInFeed v.old ↔ short ∧ 1 < fs.length
  old_count : ¬ short → Text.lineCount v.old = fs.length
  old_count_short : short → Text.lineCount v.old + 1 = fs.length

theorem endsAs_ofFindings (hfs : IsListing old new fs) (hne : fs ≠ [])
    (hline : ∀ f ∈ fs, Text.OneLine (oldLine f) ∧ Text.OneLine (newLine f)) :
    (ofFindings fs).EndsAs fs (OutrunsOld old new) := by
  obtain ⟨gs, f, rfl⟩ : ∃ gs f, fs = gs ++ [f] :=
    ⟨_, _, (List.dropLast_concat_getLast hne).symm⟩
  have hold : ∀ t ∈ gs.map oldLine ++ [oldLine f], Text.OneLine t := by
    rw [← List.map_singleton, ← List.map_append]
    exact List.forall_mem_map.2 fun g hg => (hline g hg).1
  have hnew : ∀ t ∈ gs.map newLine ++ [newLine f], Text.OneLine t := by
    rw [← List.map_singleton, ← List.map_append]
    exact List.forall_mem_map.2 fun g hg => (hline g hg).2
  have hlisted : Listed old new f := (hfs.mem_iff f).1 (by simp)
  have hshort : oldLine f = "" ↔ OutrunsOld old new :=
    oldLine_eq_empty_iff.trans hfs.last_old_eq_none_iff
  have hviews : ofFindings (gs ++ [f]) =
      ⟨Text.join "\n" (gs.map oldLine ++ [oldLine f]),
        Text.join "\n" (gs.map newLine ++ [newLine f])⟩ := by
    simp [ofFindings]
  rw [hviews]
  refine ⟨?_, ?_, ?_, fun h => ?_, fun h => ?_⟩
  · rw [Text.endsInFeed_join_concat hnew]
    exact fun h => newLine_ne_empty hlisted h.1
  · rw [Text.lineCount_join_concat hnew, if_neg (newLine_ne_empty hlisted)]
    simp
  · rw [Text.endsInFeed_join_concat hold, hshort]
    simp [List.length_pos_iff]
  · rw [Text.lineCount_join_concat hold, if_neg (mt hshort.1 h)]
    simp
  · rw [Text.lineCount_join_concat hold, if_pos (hshort.2 h)]
    simp

theorem EndsAs.aligned_iff {v : Views} {short : Prop} (h : v.EndsAs fs short) :
    v.Aligned fs.length ↔ ¬ short := by
  constructor
  · intro halign hshort
    have hcount := h.old_count_short hshort
    rw [halign.old_count] at hcount
    omega
  · intro hshort
    exact ⟨fun hend => hshort (h.old_end.1 hend).1, h.new_end, h.old_count hshort, h.new_count⟩

end Views

/-- The views of two different layouts end as their findings do. -/
theorem exists_endsAs (ho : old.WellFormed) (hn : new.WellFormed) (hne : old ≠ new)
    (hol : old.OneLine) (hnl : new.OneLine) :
    ∃ c, compareLayouts old new = some (.ok c) ∧ IsListing old new c.findings ∧
      (Views.ofFindings c.findings).EndsAs c.findings (OutrunsOld old new) := by
  obtain ⟨_, fs, _, hfs, hcmp⟩ := exists_listing ho hn hne
  have hnil : fs ≠ [] := by
    rintro rfl
    exact hne hfs.eq_of_nil
  refine ⟨_, hcmp, ?_⟩
  rw [Comparison.findings_ofFindings]
  refine ⟨hfs, Views.endsAs_ofFindings hfs hnil fun f hf => ?_⟩
  exact Views.oneLine_of_listed hol hnl ((hfs.mem_iff f).1 hf)

/-- The views of two different layouts have a line for each finding, and end without a line feed,
exactly when no finding stands behind the start of every old variable. Otherwise the old view is a
line short, and it ends with a line feed unless it is empty. -/
theorem compareLayouts_views_aligned_iff (ho : old.WellFormed) (hn : new.WellFormed)
    (hne : old ≠ new) (hol : old.OneLine) (hnl : new.OneLine) :
    ∃ c, compareLayouts old new = some (.ok c) ∧
      ((Views.ofFindings c.findings).Aligned c.findings.length ↔ ¬ OutrunsOld old new) ∧
      (Views.ofFindings c.findings).EndsAs c.findings (OutrunsOld old new) := by
  obtain ⟨c, hcmp, _, hends⟩ := exists_endsAs ho hn hne hol hnl
  exact ⟨c, hcmp, hends.aligned_iff, hends⟩

/-- A variable in the first slot. -/
def Layout.sampleTotal : Layout := [.inplace "total" "uint256" 0 32]

/-- Another variable behind it. -/
def Layout.sampleAppended : Layout := sampleTotal ++ [.inplace "cap" "uint256" 32 32]

/-- The views of a removal at the end are aligned. -/
theorem compareLayouts_views_aligned_removed :
    ∃ c, compareLayouts .sampleAppended .sampleTotal = some (.ok c) ∧
      (Views.ofFindings c.findings).Aligned c.findings.length := by
  obtain ⟨c, hcmp, hiff, _⟩ := compareLayouts_views_aligned_iff
    (show Layout.sampleAppended.WellFormed by decide) (show Layout.sampleTotal.WellFormed by decide)
    (by decide) (by decide) (by decide)
  exact ⟨c, hcmp, hiff.2 (by decide)⟩

/-- When a variable is added at the end, the old view ends with a line feed and is a line short. -/
theorem appended_view_not_aligned :
    ((Document.ofWords ["total"]).layout = .ok .sampleTotal ∧
      (Document.ofWords ["total", "cap"]).layout = .ok .sampleAppended) ∧
    (Layout.sampleTotal.WellFormed ∧ Layout.sampleAppended.WellFormed ∧
      Layout.sampleTotal ≠ .sampleAppended) ∧
    (Layout.sampleTotal.OneLine ∧ Layout.sampleAppended.OneLine) ∧
    ∃ c, compareLayouts .sampleTotal .sampleAppended = some (.ok c) ∧
      ¬ (Views.ofFindings c.findings).Aligned c.findings.length ∧
      Text.EndsInFeed (Views.ofFindings c.findings).old ∧
      Text.lineCount (Views.ofFindings c.findings).old + 1 = c.findings.length := by
  have hold : Layout.sampleTotal.WellFormed := by decide
  have hnew : Layout.sampleAppended.WellFormed := by decide
  refine ⟨⟨?_, ?_⟩, ⟨hold, hnew, by decide⟩, ⟨by decide, by decide⟩, ?_⟩
  · exact Document.layout_of_items (by decide +kernel) hold
  · exact Document.layout_of_items (by decide +kernel) hnew
  have hshort : OutrunsOld .sampleTotal .sampleAppended := by decide
  obtain ⟨c, hcmp, hfs, hends⟩ := exists_endsAs hold hnew (by decide) (by decide) (by decide)
  refine ⟨c, hcmp, fun h => hends.aligned_iff.1 h hshort, hends.old_end.2 ⟨hshort, ?_⟩,
    hends.old_count_short hshort⟩
  obtain ⟨f, hf, hfstart⟩ := (hfs.hasRow_iff 0).2 (.inl (by decide))
  obtain ⟨g, hg, hgstart⟩ := (hfs.hasRow_iff 32).2 (.inr (.inl (by decide)))
  have hne : f ≠ g := by
    rintro rfl
    rw [hfstart] at hgstart
    contradiction
  have hpair : [f, g].Nodup := by simpa using hne
  exact (hpair.subperm (by simp [hf, hg])).length_le

end StorageUpgrade
