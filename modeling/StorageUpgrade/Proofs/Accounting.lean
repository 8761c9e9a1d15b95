import StorageUpgrade.Proofs.Duality

/-!
# Counters, findings and variables

The counters of a comparison account for its findings: each counts its own outcome, together they
count all findings, and the hazards are those of four outcomes. The findings account in turn for the
variables. Every new variable has one finding that is neither removed nor a run of dirty bytes,
every old one has one that shows it, and each run of dirty bytes begins at the end of another new
variable.
-/
namespace StorageUpgrade

variable {old new : Layout} {fs : List Finding} {f : Finding} {s : Position}

namespace Classification

/-- The outcomes that are a hazard. -/
def hazards : List Classification := [.moved, .removed, .problematic, .movedAndProblematic]

/-- The outcomes that a new variable can have. -/
def ofNewVariables : List Classification :=
  [.unchanged, .moved, .new, .problematic, .movedAndProblematic]

theorem isUnsafe_eq (c : Classification) : c.isUnsafe = decide (c ∈ hazards) := by
  cases c <;> rfl

theorem mem_ofNewVariables {c : Classification} :
    c ∈ ofNewVariables ↔ c ≠ removed ∧ c ≠ dirtyByteRun := by
  cases c <;> simp [ofNewVariables]

end Classification

/-- Different outcomes are counted apart. -/
theorem sum_countP_classification {ks : List Classification} (hks : ks.Nodup)
    (fs : List Finding) :
    (ks.map fun k => fs.countP fun f => decide (f.classification = k)).sum =
      fs.countP fun f => decide (f.classification ∈ ks) := by
  induction ks with
  | nil => simp
  | cons k ks ih =>
    obtain ⟨hk, hks⟩ := List.nodup_cons.1 hks
    rw [List.map_cons, List.sum_cons, ih hks,
      fs.countP_eq_countP_filter_add (fun f => decide (f.classification ∈ k :: ks))
        fun f => decide (f.classification = k),
      List.countP_filter, List.countP_filter]
    congr 1
    · apply List.countP_congr
      intro f _
      simp +contextual
    · apply List.countP_congr
      intro f _
      have hne : f.classification ∈ ks → f.classification ≠ k := by
        rintro hf rfl
        exact hk hf
      simp
      tauto

namespace Comparison

/-- The counters say how many findings of each outcome there are. -/
structure Accounts (c : Comparison) : Prop where
  count_eq : ∀ k, (c.summary.count k).toNat = (c.filter k).length
  sum_eq : (Classification.all.map fun k => (c.summary.count k).toNat).sum = c.findings.length
  hazards_eq : c.summary.unsafeFindings.toNat =
    c.findings.countP fun f => f.classification.isUnsafe
  hazards_sum_eq : c.summary.unsafeFindings.toNat = c.summary.moved.toNat +
    c.summary.removed.toNat + c.summary.problematic.toNat + c.summary.movedAndProblematic.toNat

theorem accounts_of_counters {c : Comparison} (hlen : c.findings.length < 2 ^ 32)
    (hcount : ∀ k, c.summary.count k =
      UInt32.ofNat (c.findings.countP fun f => decide (f.classification = k)))
    (hhazards : c.summary.unsafeFindings =
      UInt32.ofNat (c.findings.countP fun f => f.classification.isUnsafe)) : c.Accounts := by
  -- No counter overflows, as none of them exceeds the number of findings.
  have hexact : ∀ counts : Finding → Bool,
      (UInt32.ofNat (c.findings.countP counts)).toNat = c.findings.countP counts := by
    intro counts
    apply UInt32.toNat_ofNat_of_lt'
    exact List.countP_le_length.trans_lt hlen
  have hcount' : ∀ k, (c.summary.count k).toNat =
      c.findings.countP fun f => decide (f.classification = k) := by
    intro k
    rw [hcount, hexact]
  have hsum : ∀ {ks : List Classification}, ks.Nodup →
      (ks.map fun k => (c.summary.count k).toNat).sum =
        c.findings.countP fun f => decide (f.classification ∈ ks) := by
    intro ks hks
    simp only [hcount', sum_countP_classification hks]
  have hhazards' : c.summary.unsafeFindings.toNat =
      c.findings.countP fun f => f.classification.isUnsafe := by
    rw [hhazards, hexact]
  refine ⟨fun k => ?_, ?_, hhazards', ?_⟩
  · rw [hcount', filter, List.countP_eq_length_filter]
  · rw [hsum (by decide), List.countP_eq_length]
    intro f _
    exact decide_eq_true f.classification.mem_all
  · simp only [hhazards', Classification.isUnsafe_eq]
    rw [← hsum (by decide)]
    simp [Classification.hazards, Summary.count, Nat.add_assoc]

/-- Findings added to nothing. -/
theorem accounts_foldl_add (hlen : fs.length < 2 ^ 32) : (fs.foldl add {}).Accounts := by
  have hfs : (fs.foldl add {}).findings = fs := findings_foldl_add fs {}
  apply accounts_of_counters
  · rwa [hfs]
  · intro k
    rw [hfs, count_foldl_add]
  · rw [hfs, unsafeFindings_foldl_add]

theorem accounts_ofFindings (dirtyBytes : Position) (hlen : fs.length < 2 ^ 32) :
    (ofFindings fs dirtyBytes).Accounts := by
  apply accounts_of_counters
  · rwa [findings_ofFindings]
  · intro k
    rw [findings_ofFindings, count_ofFindings]
  · rw [findings_ofFindings, unsafeFindings_ofFindings]

/-- Numbers of findings by their outcome that agree with the numbers of variables. -/
structure Balances (c : Comparison) (old new : Layout) (count : Classification → Nat) : Prop where
  new_eq : count .unchanged + count .moved + count .new + count .problematic +
    count .movedAndProblematic = new.length
  /-- An old variable is removed, or its finding shows a new variable too. -/
  old_eq : count .removed + (c.findings.filter fun f => f.old.isSome && f.new.isSome).length =
    old.length
  runs_le : count .dirtyByteRun ≤ new.length

end Comparison

/-- A new variable has one of its outcomes where it starts. -/
theorem mem_listedStarts_ofNewVariables :
    s ∈ listedStarts old new (·.classification ∈ Classification.ofNewVariables) ↔
      ∃ n ∈ new, n.start = s := by
  constructor
  · rintro ⟨f, hf, hclass, rfl⟩
    rw [Classification.mem_ofNewVariables] at hclass
    cases hf with
    | @replaced o n ho hn h => exact ⟨n, hn, rfl⟩
    | removed => exact absurd rfl hclass.1
    | @fresh n hn h => exact ⟨n, hn, rfl⟩
    | dirtyRun => exact absurd rfl hclass.2
  · rintro ⟨n, hn, rfl⟩
    by_cases hstart : ∃ o ∈ old, o.start = n.start
    · obtain ⟨o, ho, hstart⟩ := hstart
      refine ⟨_, .replaced ho hn hstart, Classification.mem_ofNewVariables.2 ?_, rfl⟩
      exact ⟨replacedOutcome_ne_removed, ofReplacement_eq o n old ▸ (ofReplacement_ne n o old).1⟩
    · push Not at hstart
      refine ⟨_, .fresh hn hstart, Classification.mem_ofNewVariables.2 ?_, rfl⟩
      exact freshOutcome_ne.2

/-- An old variable is shown where it starts. -/
theorem mem_listedStarts_old :
    s ∈ listedStarts old new (·.old.isSome) ↔ ∃ o ∈ old, o.start = s := by
  constructor
  · rintro ⟨f, hf, hview, rfl⟩
    cases hf with
    | @replaced o n ho hn h => exact ⟨o, ho, h⟩
    | @removed o ho h => exact ⟨o, ho, rfl⟩
    | fresh => cases hview
    | dirtyRun => cases hview
  · rintro ⟨o, ho, rfl⟩
    by_cases hstart : ∃ n ∈ new, n.start = o.start
    · obtain ⟨n, hn, hstart⟩ := hstart
      exact ⟨_, .replaced ho hn hstart.symm, rfl, hstart⟩
    · push Not at hstart
      exact ⟨_, .removed ho hstart, rfl, rfl⟩

/-- The removed variables are those that a finding shows on the old side only. -/
theorem Listed.removed_iff (h : Listed old new f) :
    f.classification = .removed ↔ f.old.isSome = true ∧ f.new.isSome = false := by
  cases h with
  | replaced => simpa using replacedOutcome_ne_removed
  | removed => simp
  | fresh => simpa using freshOutcome_ne.2.1
  | dirtyRun => simp

/-- A run of dirty bytes begins at the end of a new variable. -/
theorem Listed.exists_stop_eq (h : Listed old new f) (hrun : f.classification = .dirtyByteRun) :
    ∃ n ∈ new, n.stop = f.start := by
  cases h with
  | @replaced o n =>
    rw [← ofReplacement_eq] at hrun
    exact absurd hrun (ofReplacement_ne n o old).1
  | removed => cases hrun
  | fresh => exact absurd hrun freshOutcome_ne.2.2
  | dirtyRun hs => exact hs.1

namespace IsListing

/-- Findings of a kind correspond to the variables of a layout when they have the same starts. -/
theorem countP_eq_length (hfs : IsListing old new fs) (kind : Finding → Bool) {l : Layout}
    (hl : l.WellFormed)
    (h : ∀ s, s ∈ listedStarts old new (kind · = true) ↔ ∃ i ∈ l, i.start = s) :
    fs.countP kind = l.length := by
  have hnodup : ((fs.filter kind).map Finding.start).Nodup :=
    hfs.nodup_starts.sublist (List.filter_sublist.map _)
  have hperm : ((fs.filter kind).map Finding.start).Perm (l.map Item.start) := by
    rw [List.perm_ext_iff_of_nodup hnodup hl.nodup_starts]
    intro s
    have hfilter : s ∈ (fs.filter kind).map Finding.start ↔
        s ∈ listedStarts old new (kind · = true) := by
      simp only [List.mem_map, List.mem_filter, hfs.mem_iff, and_assoc, listedStarts,
        Set.mem_ofPred_eq]
    rw [hfilter, h, List.mem_map]
  rw [List.countP_eq_length_filter]
  simpa using hperm.length_eq

theorem countP_new (hfs : IsListing old new fs) (hn : new.WellFormed) :
    fs.countP (fun f => decide (f.classification ∈ Classification.ofNewVariables)) =
      new.length := by
  apply hfs.countP_eq_length _ hn
  intro s
  have hstart : s ∈ listedStarts old new (·.classification ∈ Classification.ofNewVariables) ↔
      ∃ n ∈ new, n.start = s := mem_listedStarts_ofNewVariables
  simpa only [decide_eq_true_eq] using hstart

theorem countP_old (hfs : IsListing old new fs) (ho : old.WellFormed) :
    fs.countP (fun f => decide (f.classification = .removed)) +
      fs.countP (fun f => f.old.isSome && f.new.isSome) = old.length := by
  rw [← hfs.countP_eq_length (·.old.isSome) ho fun s => mem_listedStarts_old,
    fs.countP_eq_countP_filter_add (·.old.isSome) (·.new.isSome), List.countP_filter,
    List.countP_filter, Nat.add_comm]
  congr 1
  apply List.countP_congr
  intro f hf
  rw [decide_eq_true_eq, ((hfs.mem_iff f).1 hf).removed_iff]
  simp

theorem countP_dirtyByteRun_le (hfs : IsListing old new fs) :
    fs.countP (fun f => decide (f.classification = .dirtyByteRun)) ≤ new.length := by
  have hnodup : ((fs.filter fun f => decide (f.classification = .dirtyByteRun)).map
      Finding.start).Nodup :=
    hfs.nodup_starts.sublist (List.filter_sublist.map _)
  have hsub : (fs.filter fun f => decide (f.classification = .dirtyByteRun)).map Finding.start ⊆
      new.map Item.stop := by
    intro s hs
    obtain ⟨f, hf, rfl⟩ := List.mem_map.1 hs
    obtain ⟨hf, hrun⟩ := List.mem_filter.1 hf
    exact List.mem_map.2 (((hfs.mem_iff f).1 hf).exists_stop_eq (of_decide_eq_true hrun))
  rw [List.countP_eq_length_filter]
  simpa using (hnodup.subperm hsub).length_le

/-- The findings account for the variables of both layouts. -/
theorem balances (hfs : IsListing old new fs) (ho : old.WellFormed) (hn : new.WellFormed)
    (dirtyBytes : Position) :
    (Comparison.ofFindings fs dirtyBytes).Balances old new
      fun k => ((Comparison.ofFindings fs dirtyBytes).filter k).length := by
  have hcount : ∀ k, ((Comparison.ofFindings fs dirtyBytes).filter k).length =
      fs.countP fun f => decide (f.classification = k) := by
    intro k
    rw [Comparison.filter, Comparison.findings_ofFindings, List.countP_eq_length_filter]
  refine ⟨?_, ?_, ?_⟩
  · simp only [hcount]
    rw [← hfs.countP_new hn, ← sum_countP_classification (by decide)]
    simp [Classification.ofNewVariables, Nat.add_assoc]
  · rw [hcount, Comparison.findings_ofFindings, ← List.countP_eq_length_filter,
      hfs.countP_old ho]
  · rw [hcount]
    exact hfs.countP_dirtyByteRun_le

end IsListing

/-- The summary leaves out no finding and no variable. Whatever findings are added one by one, the
counters account for them as long as they are fewer than a counter can hold. The findings of two
different well-formed layouts balance with their variables, and so do the counters. -/
theorem summary_accounts :
    (∀ fs : List Finding, fs.length < 2 ^ 32 →
        (fs.foldl Comparison.add {}).findings = fs ∧ (fs.foldl Comparison.add {}).Accounts) ∧
      ∀ old new : Layout, old.WellFormed → new.WellFormed → old ≠ new →
        ∃ c, compareLayouts old new = some (.ok c) ∧
          (c.Balances old new fun k => (c.filter k).length) ∧
          (c.findings.length < 2 ^ 32 →
            c.Accounts ∧ c.Balances old new fun k => (c.summary.count k).toNat) := by
  refine ⟨fun fs hlen => ?_, fun old new ho hn hne => ?_⟩
  · exact ⟨Comparison.findings_foldl_add fs {}, Comparison.accounts_foldl_add hlen⟩
  · obtain ⟨parts, fs, _, hfs, hcmp⟩ := exists_listing ho hn hne
    have hrows := hfs.balances ho hn (dirtyByteCount parts)
    refine ⟨_, hcmp, hrows, fun hlen => ?_⟩
    rw [Comparison.findings_ofFindings] at hlen
    have haccounts := Comparison.accounts_ofFindings (dirtyByteCount parts) hlen
    refine ⟨haccounts, ?_⟩
    simpa only [haccounts.count_eq] using hrows

/-- The sample has two old and two new variables, and far fewer findings than a counter can hold. -/
theorem summary_accounts_sample :
    ∃ c, compareLayouts .sampleBefore .sampleAfter = some (.ok c) ∧ c.Accounts ∧
      c.Balances .sampleBefore .sampleAfter fun k => (c.summary.count k).toNat := by
  have hold : Layout.sampleBefore.WellFormed := by decide
  have hnew : Layout.sampleAfter.WellFormed := by decide
  have hne : Layout.sampleBefore ≠ .sampleAfter := by decide
  obtain ⟨c, hcmp, _, hcounters⟩ := summary_accounts.2 _ _ hold hnew hne
  obtain ⟨_, fs, _, hfs, hcmp'⟩ := exists_listing hold hnew hne
  obtain rfl := Except.ok.inj (Option.some.inj (hcmp'.symm.trans hcmp))
  refine ⟨_, hcmp, hcounters ?_⟩
  rw [Comparison.findings_ofFindings]
  exact hfs.length_le.trans_lt (by decide)

end StorageUpgrade
