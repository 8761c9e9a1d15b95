import StorageUpgrade.Proofs.Listing

/-!
# Bytes that change their meaning

A new variable collides when one of its bytes held something else before. The comparison never looks
at single bytes, yet a new variable is found problematic exactly when it collides, provided that each
variable is as long as its type.
-/
namespace StorageUpgrade

variable {old new : Layout} {o n : Item} {f : Finding}

/-- Some byte of the variable belonged to another variable, or to the same one at another place. -/
def Collides (old : Layout) (n : Item) : Prop :=
  ∃ p, n.range.Covers p ∧ ∃ o ∈ old, o.range.Covers p ∧ ¬ (o.start = n.start ∧ o.Identical n)

/-- Every byte of the variable was free, or belonged to the same variable at the same place. -/
def Preserved (old : Layout) (n : Item) : Prop :=
  ∀ p, n.range.Covers p →
    ¬ old.Covers p ∨ ∃ o ∈ old, o.range.Covers p ∧ o.start = n.start ∧ o.Identical n

theorem preserved_iff_not_collides (ho : old.WellFormed) :
    Preserved old n ↔ ¬ Collides old n := by
  constructor
  · rintro h ⟨p, hnp, o, ho', hop, hother⟩
    rcases h p hnp with hfree | ⟨o', ho'', hop', hsame⟩
    · exact hfree ⟨o, ho', hop⟩
    · exact hother (ho.eq_of_covers ho'' ho' hop' hop ▸ hsame)
  · intro h p hnp
    by_cases hp : old.Covers p
    · obtain ⟨o, ho', hop⟩ := hp
      refine .inr ⟨o, ho', hop, ?_⟩
      by_contra hother
      exact h ⟨p, hnp, o, ho', hop, hother⟩
    · exact .inl hp

namespace Classification

/-- The outcomes of a new variable that collides. -/
def IsCollision (c : Classification) : Prop := c = problematic ∨ c = movedAndProblematic

/-- The outcomes of a new variable that does not collide. -/
def IsHarmless (c : Classification) : Prop := c = unchanged ∨ c = .new ∨ c = moved

theorem isHarmless_iff {c : Classification} (hrun : c ≠ dirtyByteRun) (hremoved : c ≠ removed) :
    c.IsHarmless ↔ ¬ c.IsCollision := by
  cases c <;> simp_all [IsHarmless, IsCollision]

end Classification

open Classification

theorem replacedOutcome_isCollision_iff :
    (replacedOutcome old o n).IsCollision ↔ ¬ n.Identical o := by
  unfold replacedOutcome
  split_ifs with h <;> simp [IsCollision, h]

theorem freshOutcome_isCollision_iff :
    (freshOutcome old n).IsCollision ↔ ∃ p ∈ old, p.range.Meets n.range := by
  unfold freshOutcome
  split_ifs with h <;> simp [IsCollision, h]

/-- In the place of an old variable a new one collides unless it is the same variable. -/
theorem collides_iff_of_start_eq (ho : old.WellFormed) (hos : old.Sized) (hns : new.Sized)
    (ho' : o ∈ old) (hn' : n ∈ new) (hpos : n.start < n.stop) (h : o.start = n.start) :
    Collides old n ↔ ¬ n.Identical o := by
  constructor
  · rintro ⟨p, hnp, q, hq, hqp, hother⟩ hid
    have hrange : o.range = n.range := hos.range_eq hns ho' hn' h hid.symm
    have hqo : q = o := ho.eq_of_covers hq ho' hqp (hrange ▸ hnp)
    subst hqo
    exact hother ⟨h, hid.symm⟩
  · intro hid
    exact ⟨n.start, ⟨le_rfl, hpos⟩, o, ho', h ▸ ho.covers_start ho', fun hsame => hid hsame.2.symm⟩

/-- Where no old variable starts, a new one collides if it shares a byte with any. -/
theorem collides_iff_of_fresh (h : ∀ o ∈ old, o.start ≠ n.start) :
    Collides old n ↔ ∃ p ∈ old, p.range.Meets n.range := by
  constructor
  · rintro ⟨p, hnp, o, ho, hop, _⟩
    exact ⟨o, ho, p, hop, hnp⟩
  · rintro ⟨o, ho, p, hop, hnp⟩
    exact ⟨p, hnp, o, ho, hop, fun hsame => h o ho hsame.1⟩

/-- The finding with the view of a new variable has the outcome of that variable. -/
theorem Listed.of_new (hn : new.WellFormed) (hf : Listed old new f) (hn' : n ∈ new)
    (hview : f.new = some (.ofItem n)) :
    f.start = n.start ∧
      ((∃ o ∈ old, o.start = n.start ∧ f.classification = replacedOutcome old o n) ∨
        (∀ o ∈ old, o.start ≠ n.start) ∧ f.classification = freshOutcome old n) := by
  cases hf with
  | @replaced o m ho hm h =>
    have hstart : m.start = n.start := congrArg View.start (Option.some.inj hview)
    obtain rfl := hn.eq_of_start hm hn' hstart
    exact ⟨rfl, .inl ⟨o, ho, h, rfl⟩⟩
  | removed => cases hview
  | @fresh m hm h =>
    have hstart : m.start = n.start := congrArg View.start (Option.some.inj hview)
    obtain rfl := hn.eq_of_start hm hn' hstart
    exact ⟨rfl, .inr ⟨h, rfl⟩⟩
  | @dirtyRun o s stop hs ho hos hstop =>
    have hstart : s = n.start := congrArg View.start (Option.some.inj hview)
    exact absurd hstart.symm (hs.2.2 n hn')

theorem exists_listed_of_new (hn' : n ∈ new) :
    ∃ f, Listed old new f ∧ f.new = some (.ofItem n) := by
  by_cases h : ∃ o ∈ old, o.start = n.start
  · obtain ⟨o, ho, h⟩ := h
    exact ⟨_, .replaced ho hn' h, rfl⟩
  · push Not at h
    exact ⟨_, .fresh hn' h, rfl⟩

/-- A new variable has one finding. -/
theorem IsListing.existsUnique_of_new {fs : List Finding} (hfs : IsListing old new fs)
    (hn : new.WellFormed) (hn' : n ∈ new) : ∃! f, f ∈ fs ∧ f.new = some (.ofItem n) := by
  have hstart : ∀ f ∈ fs, f.new = some (.ofItem n) → f.start = n.start :=
    fun f hf hview => (((hfs.mem_iff f).1 hf).of_new hn hn' hview).1
  obtain ⟨f, hf, hview⟩ : ∃ f, Listed old new f ∧ f.new = some (.ofItem n) :=
    exists_listed_of_new hn'
  have hmem : f ∈ fs := (hfs.mem_iff f).2 hf
  refine ⟨f, ⟨hmem, hview⟩, ?_⟩
  rintro g ⟨hg, hgview⟩
  exact hfs.eq_of_start hg hmem ((hstart g hg hgview).trans (hstart f hmem hview).symm)

/-- The outcome of a new variable tells whether it collides. -/
theorem Listed.collision_iff (ho : old.WellFormed) (hn : new.WellFormed) (hos : old.Sized)
    (hns : new.Sized) (hf : Listed old new f) (hn' : n ∈ new) (hview : f.new = some (.ofItem n)) :
    (f.classification.IsCollision ↔ Collides old n) ∧
      (f.classification.IsHarmless ↔ Preserved old n) := by
  have hpos := hn.pos hn'
  have hcollision : f.classification.IsCollision ↔ Collides old n := by
    rcases (hf.of_new hn hn' hview).2 with ⟨o, ho', h, hclass⟩ | ⟨hfresh, hclass⟩
    · rw [hclass, replacedOutcome_isCollision_iff,
        collides_iff_of_start_eq ho hos hns ho' hn' hpos h]
    · rw [hclass, freshOutcome_isCollision_iff, collides_iff_of_fresh hfresh]
  have hne : f.classification ≠ .dirtyByteRun ∧ f.classification ≠ .removed := by
    rcases (hf.of_new hn hn' hview).2 with ⟨o, _, _, hclass⟩ | ⟨_, hclass⟩
    · exact hclass ▸ ofReplacement_eq o n old ▸ ofReplacement_ne n o old
    · exact hclass ▸ ofFresh_eq ho hpos ▸ ofFresh_ne n old
  exact ⟨hcollision, by rw [isHarmless_iff hne.1 hne.2, preserved_iff_not_collides ho, hcollision]⟩

/-- Every new variable has one finding, which is problematic exactly when the variable collides, and
harmless exactly when each of its bytes was free or its own. -/
theorem compareLayouts_collision_iff (ho : old.WellFormed) (hn : new.WellFormed) (hos : old.Sized)
    (hns : new.Sized) (hne : old ≠ new) :
    ∃ c, compareLayouts old new = some (.ok c) ∧ ∀ n ∈ new,
      (∃! f, f ∈ c.findings ∧ f.new = some (.ofItem n)) ∧
      ∀ f ∈ c.findings, f.new = some (.ofItem n) →
        (f.classification.IsCollision ↔ Collides old n) ∧
          (f.classification.IsHarmless ↔ Preserved old n) := by
  obtain ⟨_, fs, _, hfs, hcmp⟩ := exists_listing ho hn hne
  refine ⟨_, hcmp, fun n hn' => ?_⟩
  rw [Comparison.findings_ofFindings]
  refine ⟨hfs.existsUnique_of_new hn hn', fun f hf hview => ?_⟩
  exact ((hfs.mem_iff f).1 hf).collision_iff ho hn hos hns hn' hview

/-- The cap moves to byte 40, in the middle of its old bytes. -/
theorem compareLayouts_collision_sample :
    ∃ c, compareLayouts .sampleBefore .sampleAfter = some (.ok c) ∧
      ∃ f ∈ c.findings, f.new = some (.ofItem (.inplace "cap" "uint128" 40 16)) ∧
        f.classification.IsCollision := by
  obtain ⟨c, hcmp, hall⟩ := compareLayouts_collision_iff
    (show Layout.sampleBefore.WellFormed by decide) (show Layout.sampleAfter.WellFormed by decide)
    (by decide) (by decide) (by decide)
  obtain ⟨⟨f, ⟨hf, hview⟩, _⟩, hclass⟩ := hall (.inplace "cap" "uint128" 40 16) (by decide)
  have hcollides : Collides .sampleBefore (.inplace "cap" "uint128" 40 16) :=
    ⟨40, by decide, .inplace "cap" "uint128" 32 16, by decide⟩
  exact ⟨c, hcmp, f, hf, hview, (hclass f hf hview).1.2 hcollides⟩

end StorageUpgrade
