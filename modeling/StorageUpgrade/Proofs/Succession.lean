import Mathlib.Data.List.Chain
import StorageUpgrade.Proofs.Safety

/-!
# Successive upgrades

Safe upgrades compose: what the first one keeps, the second one keeps too, and neither of them can
bring back a variable of the oldest version. So a history of versions whose steps are all reported
safe may be skipped over, from any version to any later one.
-/
namespace StorageUpgrade

variable {first middle last old new : Layout} {versions : List Layout}

/-- The comparison reports no hazard, and its findings are few enough to be counted. -/
def ReportedSafe (old new : Layout) : Prop :=
  ∃ c, compareLayouts old new = some (.ok c) ∧ c.findings.length < 2 ^ 32 ∧ c.hasUnsafeFindings = false

namespace SafeUpgrade

/-- Only the order of the last version matters: two of its variables do not start together. -/
theorem trans (hlast : last.WellFormed) (h : SafeUpgrade first middle)
    (k : SafeUpgrade middle last) : SafeUpgrade first last where
  kept := by
    intro o ho
    obtain ⟨m, hm, hmstart, hmo⟩ := h.kept o ho
    obtain ⟨n, hn, hnstart, hnm⟩ := k.kept m hm
    exact ⟨n, hn, hnstart.trans hmstart, hnm.trans hmo⟩
  added := by
    intro n hn hfresh o ho hon
    by_cases hmiddle : ∃ m ∈ middle, m.start = n.start
    · -- The variable came with the first upgrade, and the second one kept it.
      obtain ⟨m, hm, hmstart⟩ := hmiddle
      obtain ⟨n', hn', hstart, hid⟩ := k.kept m hm
      obtain rfl := hlast.eq_of_start hn' hn (hstart.trans hmstart)
      have hmfresh : ∀ p ∈ first, p.start ≠ m.start := by
        intro p hp
        rw [hmstart]
        exact hfresh p hp
      exact h.added m hm hmfresh o ho (hon.trans hid)
    · -- The variable came with the second upgrade, where the old one had its kept copy.
      push Not at hmiddle
      obtain ⟨m, hm, _, hmo⟩ := h.kept o ho
      exact k.added n hn hmiddle m hm (hmo.trans hon)

/-- The comparison of a safe upgrade has no hazard to count, however many findings there are. -/
theorem exists_comparison (h : SafeUpgrade old new) (ho : old.WellFormed) (hn : new.WellFormed)
    (hos : old.Sized) (hns : new.Sized) :
    ∃ c, compareLayouts old new = some (.ok c) ∧ c.hasUnsafeFindings = false ∧
      c.summary.dirtyBytes = 0 := by
  by_cases hne : old = new
  · exact ⟨_, if_pos hne, rfl, rfl⟩
  · obtain ⟨_, fs, hparts, hfs, hcmp⟩ := exists_listing ho hn hne
    refine ⟨_, hcmp, ?_, ?_⟩
    · have hsafe := (forall_listed_safe_iff hn hos hns).2 h
      apply Comparison.hasUnsafeFindings_of_forall
      intro f hf
      exact hsafe f ((hfs.mem_iff f).1 hf)
    · rw [Comparison.dirtyBytes_ofFindings, h.dirtyByteCount_eq_zero ho hn hos hns hparts]

end SafeUpgrade

theorem ReportedSafe.safeUpgrade (h : ReportedSafe old new) (ho : old.WellFormed)
    (hn : new.WellFormed) (hos : old.Sized) (hns : new.Sized) : SafeUpgrade old new := by
  obtain ⟨c, hcmp, hlen, hsafe⟩ := h
  obtain ⟨c', hcmp', _, hverdict, _⟩ := exists_verdict ho hn hos hns
  obtain rfl : c' = c := Except.ok.inj (Option.some.inj (hcmp'.symm.trans hcmp))
  exact (hverdict hlen).1 hsafe

theorem SafeUpgrade.reportedSafe (h : SafeUpgrade old new) (ho : old.WellFormed)
    (hn : new.WellFormed) (hos : old.Sized) (hns : new.Sized)
    (hlen : old.length + 2 * new.length < 2 ^ 32) : ReportedSafe old new := by
  obtain ⟨c, hcmp, hle, hverdict, _⟩ := exists_verdict ho hn hos hns
  have hlt : c.findings.length < 2 ^ 32 := hle.trans_lt hlen
  exact ⟨c, hcmp, hlt, (hverdict hlt).2 h⟩

/-- In a history of safe steps every upgrade to a later version is safe. -/
theorem pairwise_safeUpgrade (hwf : ∀ l ∈ versions, l.WellFormed)
    (hsteps : versions.IsChain SafeUpgrade) : versions.Pairwise SafeUpgrade := by
  induction versions with
  | nil => exact .nil
  | cons first later ih =>
    have hlater : later.Pairwise SafeUpgrade :=
      ih (fun l hl => hwf l (.tail _ hl)) hsteps.tail
    refine .cons (fun last hlast => ?_) hlater
    cases later with
    | nil => cases hlast
    | cons next later =>
      have hstep : SafeUpgrade first next := hsteps.rel
      rcases List.mem_cons.1 hlast with rfl | hmem
      · exact hstep
      · exact hstep.trans (hwf last (.tail _ hlast)) (List.rel_of_pairwise_cons hlater hmem)

/-- Successive versions, each step of which is reported safe, may be skipped over: the comparison of
any version with any later one succeeds, reports no hazard and leaves no byte dirty. -/
theorem compareLayouts_skip_safe (hwf : ∀ l ∈ versions, l.WellFormed)
    (hsized : ∀ l ∈ versions, l.Sized) (hsteps : versions.IsChain ReportedSafe) :
    versions.Pairwise fun first last =>
      ∃ c, compareLayouts first last = some (.ok c) ∧ c.hasUnsafeFindings = false ∧
        c.summary.dirtyBytes = 0 := by
  have hsafe : versions.IsChain SafeUpgrade := by
    refine hsteps.imp_of_mem_imp fun old new ho hn h => ?_
    exact h.safeUpgrade (hwf old ho) (hwf new hn) (hsized old ho) (hsized new hn)
  refine (pairwise_safeUpgrade hwf hsafe).imp_of_mem fun {first last} hf hl h => ?_
  exact h.exists_comparison (hwf first hf) (hwf last hl) (hsized first hf) (hsized last hl)

/-- A version with a word of storage for each label, one slot after another. -/
def Layout.ofWords (labels : List String) : Layout :=
  labels.zipIdx.map fun (label, slot) =>
    .inplace label "uint256" (slot * Position.slotSize) Position.slotSize

/-- A cap is added first and a rate after it, so both may be added at once. -/
theorem compareLayouts_skip_safe_two_added :
    ∃ c, compareLayouts (.ofWords ["total"]) (.ofWords ["total", "cap", "rate"]) = some (.ok c) ∧
      c.hasUnsafeFindings = false ∧ c.summary.dirtyBytes = 0 := by
  have hcap : ReportedSafe (.ofWords ["total"]) (.ofWords ["total", "cap"]) :=
    SafeUpgrade.reportedSafe ⟨by decide, by decide⟩ (by decide) (by decide) (by decide) (by decide)
      (by decide)
  have hrate : ReportedSafe (.ofWords ["total", "cap"]) (.ofWords ["total", "cap", "rate"]) :=
    SafeUpgrade.reportedSafe ⟨by decide, by decide⟩ (by decide) (by decide) (by decide) (by decide)
      (by decide)
  have hsteps : List.IsChain ReportedSafe
      [.ofWords ["total"], .ofWords ["total", "cap"], .ofWords ["total", "cap", "rate"]] :=
    .cons_cons hcap (.cons_cons hrate (.singleton _))
  have hall := compareLayouts_skip_safe (by decide) (by decide) hsteps
  exact List.rel_of_pairwise_cons hall (by simp)

end StorageUpgrade
