import StorageUpgrade.Proofs.Accounting
import StorageUpgrade.Proofs.Padding
import StorageUpgrade.Proofs.Pieces

/-!
# What the text of a summary says

The text has a part for every outcome that occurs, except for what is unchanged. From the number and
the phrase of a part, the outcome and its counter are found again, and from what follows the parts
the number of dirty bytes. Dirty bytes without a part are not mentioned, but a comparison has none,
since every dirty part of the overlay stands in a row that tells of a change.
-/
namespace StorageUpgrade

namespace Classification

/-- The outcomes that the text tells of, in its order. -/
def told : List Classification := all.filter (· ≠ .unchanged)

theorem mem_told {k : Classification} : k ∈ told ↔ k ≠ .unchanged := by
  simp [told, mem_all]

theorem phrase_injective {k l : Classification} (h : k.phrase = l.phrase) : k = l := by
  have hall : ∀ k ∈ all, ∀ l ∈ all, k.phrase = l.phrase → k = l := by decide
  exact hall k k.mem_all l l.mem_all h

end Classification

namespace Summary

variable {s t : Summary} {k : Classification}

/-- The parts of the text. -/
def parts (s : Summary) : List String := Classification.told.filterMap s.phrase?

theorem text_of_nil (h : s.parts = []) : s.text = "No changes" := by
  unfold parts Classification.told at h
  rw [text, h]

theorem text_of_ne_nil (h : s.parts ≠ []) : s.text = Text.join ", " s.parts ++ s.dirtyPhrase := by
  unfold parts Classification.told at *
  rw [text]
  split
  · contradiction
  · rfl

theorem mem_parts {part : String} : part ∈ s.parts ↔
    ∃ k, k ≠ .unchanged ∧ s.count k ≠ 0 ∧
      part = toString (s.count k).toNat ++ " " ++ k.phrase := by
  unfold parts phrase?
  simp only [List.mem_filterMap, Classification.mem_told]
  apply exists_congr
  intro k
  split_ifs with h <;> simp [h, eq_comm]

theorem parts_eq_nil_iff : s.parts = [] ↔ ∀ k ≠ .unchanged, s.count k = 0 := by
  rw [List.eq_nil_iff_forall_not_mem]
  constructor
  · intro h k hk
    by_contra hcount
    exact h _ (mem_parts.2 ⟨k, hk, hcount, rfl⟩)
  · intro h part hpart
    obtain ⟨k, hk, hcount, _⟩ := mem_parts.1 hpart
    exact hcount (h k hk)

/-- A part tells of one outcome how often it occurs. -/
theorem count_eq_of_part_eq {l : Classification}
    (h : toString (s.count k).toNat ++ " " ++ k.phrase =
      toString (t.count l).toNat ++ " " ++ l.phrase) : k = l ∧ s.count k = t.count k := by
  have hspace : ∀ phrase : String, ∀ c ∈ (' ' :: phrase.toList).head?, ¬ c.isDigit = true := by
    intro phrase c hc
    cases hc
    decide
  have hchars := congrArg String.toList h
  simp only [String.toList_append, List.append_assoc] at hchars
  obtain ⟨hnumber, hphrase⟩ :=
    Text.decimal_eq_of_append (hspace k.phrase) (hspace l.phrase) hchars
  have hkl : k = l :=
    Classification.phrase_injective (String.toList_injective (List.cons.inj hphrase).2)
  subst hkl
  exact ⟨rfl, UInt32.toNat_inj.1 hnumber⟩

theorem count_eq_of_parts_eq (h : s.parts = t.parts) (hk : k ≠ .unchanged) :
    s.count k = t.count k := by
  have hle : ∀ {s t : Summary}, s.parts = t.parts → s.count k ≠ 0 → s.count k = t.count k := by
    intro s t h hcount
    have hpart := mem_parts.2 ⟨k, hk, hcount, rfl⟩
    rw [h] at hpart
    obtain ⟨l, _, _, heq⟩ := mem_parts.1 hpart
    exact (count_eq_of_part_eq heq).2
  by_cases hs : s.count k = 0
  · by_cases ht : t.count k = 0
    · rw [hs, ht]
    · exact (hle h.symm ht).symm
  · exact hle h hs

/-- No part holds one of the marks that stand between parts and in front of the dirty bytes. -/
theorem not_mem_of_mem_parts {part : String} (h : part ∈ s.parts) :
    ',' ∉ part.toList ∧ ';' ∉ part.toList := by
  obtain ⟨k, _, _, rfl⟩ := mem_parts.1 h
  have hphrase : ',' ∉ k.phrase.toList ∧ ';' ∉ k.phrase.toList := by
    cases k <;> decide
  have hdigits : ∀ c ∈ Nat.toDigits 10 (s.count k).toNat, c ≠ ',' ∧ c ≠ ';' := by
    intro c hc
    have hdigit := isDigit_of_mem_decimal hc
    constructor <;> (rintro rfl; contradiction)
  simp only [String.toList_append, toList_toString, List.mem_append, not_or]
  refine ⟨⟨⟨fun hc => (hdigits _ hc).1 rfl, by decide⟩, hphrase.1⟩,
    ⟨fun hc => (hdigits _ hc).2 rfl, by decide⟩, hphrase.2⟩

theorem parts_eq_of_join_eq (hs : s.parts ≠ []) (ht : t.parts ≠ [])
    (h : Text.join ", " s.parts = Text.join ", " t.parts) : s.parts = t.parts := by
  have hcomma : ∀ s : Summary, ∀ part ∈ s.parts, ',' ∉ part.toList :=
    fun s part hpart => (not_mem_of_mem_parts hpart).1
  have hglue : ",".toList = [','] := rfl
  have hblank : ',' ∉ " ".toList := by decide
  exact (Text.join_inj hglue hblank hs ht (hcomma s) (hcomma t)).1 h

/-- What is said of dirty bytes is said behind a semicolon. -/
theorem head?_dirtyPhrase : ∀ c ∈ s.dirtyPhrase.toList.head?, ¬ c ≠ ';' := by
  unfold dirtyPhrase
  split_ifs <;> simp

theorem dirtyPhrase_eq (h : s.dirtyBytes ≠ 0) : s.dirtyPhrase =
    "; " ++ toString s.dirtyBytes ++ " dirty byte" ++ Text.plural s.dirtyBytes := by
  rw [dirtyPhrase, if_neg h]

theorem dirtyPhrase_eq_empty_iff : s.dirtyPhrase = "" ↔ s.dirtyBytes = 0 := by
  unfold dirtyPhrase
  split_ifs with h <;> simp [h]

theorem dirtyBytes_eq_of_phrase_eq (h : s.dirtyPhrase = t.dirtyPhrase) :
    s.dirtyBytes = t.dirtyBytes := by
  by_cases hs : s.dirtyBytes = 0
  · have ht := dirtyPhrase_eq_empty_iff.2 hs
    rw [h, dirtyPhrase_eq_empty_iff] at ht
    rw [hs, ht]
  · have ht : t.dirtyBytes ≠ 0 := by rwa [ne_eq, ← dirtyPhrase_eq_empty_iff, ← h,
      dirtyPhrase_eq_empty_iff]
    rw [dirtyPhrase_eq hs, dirtyPhrase_eq ht] at h
    have hchars := congrArg String.toList h
    simp only [String.toList_append, List.append_assoc] at hchars
    have hspace : ∀ n, ∀ c ∈ (" dirty byte".toList ++ (Text.plural n).toList).head?,
        ¬ c.isDigit = true := by
      intro n c hc
      cases hc
      decide
    exact (Text.decimal_eq_of_append (hspace _) (hspace _) (List.append_cancel_left hchars)).1

/-- With something to tell the text begins with a number. -/
theorem exists_head_text (h : s.parts ≠ []) :
    ∃ d, s.text.toList.head? = some d ∧ d.isDigit = true := by
  obtain ⟨p, ps, hparts⟩ := List.exists_cons_of_ne_nil h
  obtain ⟨k, _, _, hp⟩ := mem_parts.1 (hparts ▸ List.mem_cons_self)
  obtain ⟨d, hd, hdigit⟩ := exists_head_decimal (s.count k).toNat
  refine ⟨d, ?_, hdigit⟩
  rw [text_of_ne_nil h, hparts, hp]
  simp only [String.toList_append, Text.toList_join_cons, toList_toString, List.append_assoc,
    List.head?_append, hd, Option.some_or]

theorem text_eq_noChanges_iff : s.text = "No changes" ↔ ∀ k ≠ .unchanged, s.count k = 0 := by
  rw [← parts_eq_nil_iff]
  refine ⟨fun h => ?_, text_of_nil⟩
  by_contra hparts
  obtain ⟨d, hd, hdigit⟩ := exists_head_text hparts
  rw [h] at hd
  cases hd
  contradiction

/-- Two texts with something to tell are equal in their parts and in what they say of dirty
bytes. -/
theorem parts_eq_of_text_eq (hs : s.parts ≠ []) (ht : t.parts ≠ []) (h : s.text = t.text) :
    s.parts = t.parts ∧ s.dirtyPhrase = t.dirtyPhrase := by
  have hplain : ∀ {s : Summary}, s.parts ≠ [] →
      ∀ c ∈ (Text.join ", " s.parts).toList, c ≠ ';' := by
    intro s hs c hc
    obtain ⟨p, ps, hparts⟩ := List.exists_cons_of_ne_nil hs
    have hnone : ∀ q ∈ p :: ps, ';' ∉ q.toList :=
      fun q hq => (not_mem_of_mem_parts (hparts ▸ hq)).2
    rintro rfl
    rw [hparts, Text.toList_join_cons, List.mem_append, List.mem_flatMap] at hc
    rcases hc with hc | ⟨q, hq, hc⟩
    · exact hnone p (.head _) hc
    · rcases List.mem_append.1 hc with hc | hc
      · revert hc
        decide
      · exact hnone q (.tail _ hq) hc
  rw [text_of_ne_nil hs, text_of_ne_nil ht] at h
  have hchars := congrArg String.toList h
  rw [String.toList_append, String.toList_append] at hchars
  obtain ⟨hjoin, hphrase⟩ := Text.run_eq_of_append (hplain hs) (hplain ht) head?_dirtyPhrase
    head?_dirtyPhrase hchars
  exact ⟨parts_eq_of_join_eq hs ht (String.toList_injective hjoin),
    String.toList_injective hphrase⟩

/-- The text tells how often each outcome occurs, and how many bytes are dirty if any does. -/
theorem text_eq_iff : s.text = t.text ↔
    (∀ k ≠ .unchanged, s.count k = t.count k) ∧
      ((∃ k ≠ .unchanged, s.count k ≠ 0) → s.dirtyBytes = t.dirtyBytes) := by
  constructor
  · intro h
    by_cases hs : s.parts = []
    · have hzero := parts_eq_nil_iff.1 hs
      have hzero' := text_eq_noChanges_iff.1 (h ▸ text_of_nil hs)
      refine ⟨fun k hk => ?_, fun ⟨k, hk, hcount⟩ => absurd (hzero k hk) hcount⟩
      rw [hzero k hk, hzero' k hk]
    · have ht : t.parts ≠ [] := by
        intro ht
        rw [text_of_nil ht, text_eq_noChanges_iff, ← parts_eq_nil_iff] at h
        exact hs h
      obtain ⟨hparts, hphrase⟩ := parts_eq_of_text_eq hs ht h
      exact ⟨fun k => count_eq_of_parts_eq hparts, fun _ => dirtyBytes_eq_of_phrase_eq hphrase⟩
  · rintro ⟨hcount, hbytes⟩
    by_cases hsome : ∃ k ≠ .unchanged, s.count k ≠ 0
    · exact text_congr hcount (hbytes hsome)
    · push Not at hsome
      have hs := text_eq_noChanges_iff.2 hsome
      have ht := text_eq_noChanges_iff.2 fun k hk => (hcount k hk).symm.trans (hsome k hk)
      rw [hs, ht]

end Summary

open Overlay

variable {old new : Layout} {c : Comparison}

/-- A dirty part of an aligned overlay stands in a row, and its finding tells of a change. -/
theorem exists_changed_of_dirty {parts : List Part} {a : Alignment} {fs : List Finding}
    {r : ByteRange} (ha : align parts old = .ok a) (hfs : classify a old = .ok fs)
    (hr : .dirty r ∈ parts) : ∃ f ∈ fs, f.classification ≠ .unchanged := by
  obtain ⟨hover, _⟩ := (align_fails_iff_surplus parts old).2.2 a ha
  unfold classify at hfs
  split_ifs at hfs with hlen
  have hmem : Aligned.entry (.dirty r) ∈ a.rows.map Prod.fst := by
    rw [Alignment.rows, List.map_fst_zip hlen.le, hover.mem_iff]
    exact .inl ⟨_, hr, rfl⟩
  obtain ⟨⟨_, y⟩, hrow, rfl⟩ := List.mem_map.1 hmem
  obtain ⟨f, hf⟩ := exists_ok_of_mem hfs hrow
  refine ⟨f, (mem_of_mapM_ok hfs f).2 ⟨_, hrow, hf⟩, ?_⟩
  intro hsame
  cases y <;> cases hf <;> cases hsame

/-- A comparison is the shortcut for equal layouts, or it has gone through all stages. -/
theorem compareLayouts_stages (hcmp : compareLayouts old new = some (.ok c)) :
    c = .ofFindings [] 0 ∨ ∃ parts a fs, align parts old = .ok a ∧ classify a old = .ok fs ∧
      c = .ofFindings fs (dirtyByteCount parts) := by
  unfold compareLayouts at hcmp
  split_ifs at hcmp
  · cases hcmp
    exact .inl rfl
  · obtain ⟨parts, _, hcmp⟩ := Option.map_eq_some_iff.1 hcmp
    obtain ⟨a, ha, hcmp⟩ := bind_eq_ok_iff.1 hcmp
    obtain ⟨fs, hfs, hcmp⟩ := bind_eq_ok_iff.1 hcmp
    cases hcmp
    exact .inr ⟨parts, a, fs, ha, hfs, rfl⟩

/-- A comparison without a change leaves no byte dirty, whatever the layouts are. -/
theorem dirtyBytes_eq_zero_of_unchanged (hcmp : compareLayouts old new = some (.ok c))
    (h : ∀ f ∈ c.findings, f.classification = .unchanged) : c.summary.dirtyBytes = 0 := by
  rcases compareLayouts_stages hcmp with rfl | ⟨parts, a, fs, ha, hfs, rfl⟩
  · rfl
  · rw [Comparison.findings_ofFindings] at h
    have hclean : parts.filter Part.isDirty = [] := by
      rw [List.filter_eq_nil_iff]
      intro p hp hdirty
      cases p with
      | item n => cases hdirty
      | dirty r =>
        obtain ⟨f, hf, hchange⟩ := exists_changed_of_dirty ha hfs hp
        exact hchange (h f hf)
    rw [Comparison.dirtyBytes_ofFindings, dirtyByteCount, hclean]
    rfl

/-- The text says that nothing changed when no finding tells of a change. -/
theorem text_eq_noChanges_iff_unchanged {fs : List Finding} {dirtyBytes : Position}
    (hlen : fs.length < 2 ^ 32) :
    (Comparison.ofFindings fs dirtyBytes).summaryText = "No changes" ↔
      ∀ f ∈ fs, f.classification = .unchanged := by
  have hcount : ∀ k, (Comparison.ofFindings fs dirtyBytes).summary.count k = 0 ↔
      ∀ f ∈ fs, f.classification ≠ k := by
    intro k
    rw [← UInt32.toNat_inj, (Comparison.accounts_ofFindings dirtyBytes hlen).count_eq,
      Comparison.filter, Comparison.findings_ofFindings]
    simp
  have htext : (Comparison.ofFindings fs dirtyBytes).summaryText =
      (Comparison.ofFindings fs dirtyBytes).summary.text := rfl
  rw [htext, Summary.text_eq_noChanges_iff]
  simp only [hcount]
  constructor
  · intro h f hf
    by_contra hchange
    exact h _ hchange f hf rfl
  · intro h k hk f hf hfk
    exact hk (hfk ▸ h f hf)

/-- The text of a summary hides nothing. It determines every counter but that of the unchanged
variables, and the number of dirty bytes unless there is nothing to tell. The text of a comparison
says that nothing changed only if no finding tells of a change, and then no byte is dirty, so that
it always ends with the number of dirty bytes if there is one. -/
theorem summary_text_hides_nothing :
    (∀ s t : Summary, s.text = t.text ↔
        (∀ k ≠ .unchanged, s.count k = t.count k) ∧
          ((∃ k ≠ .unchanged, s.count k ≠ 0) → s.dirtyBytes = t.dirtyBytes)) ∧
      ∀ old new c, compareLayouts old new = some (.ok c) → c.findings.length < 2 ^ 32 →
        (c.summaryText = "No changes" ↔ ∀ f ∈ c.findings, f.classification = .unchanged) ∧
        (c.summaryText = "No changes" → c.summary.dirtyBytes = 0) ∧
        (0 < c.summary.dirtyBytes → ∃ front, c.summaryText = front ++ ("; " ++
          toString c.summary.dirtyBytes ++ " dirty byte" ++
          Text.plural c.summary.dirtyBytes)) := by
  refine ⟨fun s t => Summary.text_eq_iff, fun old new c hcmp hlen => ?_⟩
  obtain ⟨fs, dirtyBytes, rfl⟩ : ∃ fs dirtyBytes, c = .ofFindings fs dirtyBytes := by
    rcases compareLayouts_stages hcmp with h | ⟨_, _, _, _, _, h⟩ <;> exact ⟨_, _, h⟩
  rw [Comparison.findings_ofFindings] at hlen
  have hunchanged := @text_eq_noChanges_iff_unchanged fs dirtyBytes hlen
  have hclean := dirtyBytes_eq_zero_of_unchanged hcmp
  rw [Comparison.findings_ofFindings] at hclean ⊢
  refine ⟨hunchanged, fun h => hclean (hunchanged.1 h), fun hpos => ?_⟩
  have hparts : (Comparison.ofFindings fs dirtyBytes).summary.parts ≠ [] := by
    intro hnil
    exact Nat.ne_of_gt hpos (hclean (hunchanged.1 (Summary.text_of_nil hnil)))
  refine ⟨Text.join ", " (Comparison.ofFindings fs dirtyBytes).summary.parts, ?_⟩
  rw [← Summary.dirtyPhrase_eq (Nat.ne_of_gt hpos)]
  exact Summary.text_of_ne_nil hparts

/-- The sample leaves the bytes from 16 to 40 dirty, and its text ends with their number. -/
theorem summary_text_hides_nothing_sample :
    ∃ c, compareLayouts .sampleBefore .sampleAfter = some (.ok c) ∧ c.summaryText ≠ "No changes" ∧
      ∃ front, c.summaryText = front ++ "; 24 dirty bytes" := by
  obtain ⟨parts, fs, hparts, hfs, hcmp⟩ := exists_listing
    (show Layout.sampleBefore.WellFormed by decide) (show Layout.sampleAfter.WellFormed by decide)
    (by decide)
  have hbytes : dirtyByteCount parts = 24 := by
    rw [overlay_eq_of_emittedWithin 7 rfl] at hparts
    obtain rfl := Option.some.inj hparts
    decide +kernel
  rw [hbytes] at hcmp
  obtain ⟨_, hzero, hstated⟩ := summary_text_hides_nothing.2 _ _ _ hcmp <| by
    rw [Comparison.findings_ofFindings]
    exact hfs.length_le.trans_lt (by decide)
  rw [Comparison.dirtyBytes_ofFindings] at hzero hstated
  have htwentyFour : (24 : Position) ≠ 0 := by decide
  exact ⟨_, hcmp, mt hzero htwentyFour, hstated (Nat.pos_of_ne_zero htwentyFour)⟩

end StorageUpgrade
