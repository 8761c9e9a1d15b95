import Mathlib.Algebra.Group.Nat.Defs
import Mathlib.Data.List.Basic
import StorageUpgrade.Comparison

/-!
# What the summary counts

Findings are counted one by one. The counters are words, so a count is exact as long as there are
fewer findings than a word can hold.
-/
namespace StorageUpgrade

namespace Summary

theorem unsafeFindings_record (s : Summary) (c : Classification) :
    (s.record c).unsafeFindings = s.unsafeFindings + if c.isUnsafe then 1 else 0 := by
  cases c <;> simp [record, bump, Classification.isUnsafe]

theorem count_record (k : Classification) (s : Summary) (c : Classification) :
    (s.record c).count k = s.count k + if decide (c = k) then 1 else 0 := by
  cases c <;> cases k <;> simp [record, bump, count, Classification.isUnsafe]

/-- The text does not tell how many variables are unchanged. -/
theorem text_congr {s t : Summary} (hcount : ∀ c, c ≠ .unchanged → s.count c = t.count c)
    (hbytes : s.dirtyBytes = t.dirtyBytes) : s.text = t.text := by
  have hphrase : ∀ c ∈ Classification.all.filter (· ≠ .unchanged), s.phrase? c = t.phrase? c := by
    intro c hc
    have hne : c ≠ .unchanged := by simpa using (List.mem_filter.1 hc).2
    rw [phrase?, phrase?, hcount c hne]
  have hdirty : s.dirtyPhrase = t.dirtyPhrase := by rw [dirtyPhrase, dirtyPhrase, hbytes]
  rw [text, text, List.filterMap_congr hphrase, hdirty]

end Summary

namespace Comparison

theorem findings_foldl_add (fs : List Finding) (c : Comparison) :
    (fs.foldl add c).findings = c.findings ++ fs := by
  induction fs generalizing c with
  | nil => simp
  | cons f fs ih => simp [ih, add]

/-- Adding findings one by one adds to a counter the number of those that raise it. -/
theorem counter_foldl_add (counter : Summary → UInt32) (counts : Classification → Bool)
    (hrecord : ∀ s c, counter (s.record c) = counter s + if counts c then 1 else 0)
    (fs : List Finding) (c : Comparison) :
    counter (fs.foldl add c).summary =
      counter c.summary + UInt32.ofNat (fs.countP fun f => counts f.classification) := by
  induction fs generalizing c with
  | nil => simp
  | cons f fs ih =>
    rw [List.foldl_cons, ih, List.countP_cons]
    simp only [add, hrecord]
    cases counts f.classification <;> simp [UInt32.ofNat_add, UInt32.add_assoc, UInt32.add_comm]

@[simp] theorem findings_ofFindings (fs : List Finding) (dirtyBytes : Position) :
    (ofFindings fs dirtyBytes).findings = fs :=
  findings_foldl_add fs {}

@[simp] theorem dirtyBytes_ofFindings (fs : List Finding) (dirtyBytes : Position) :
    (ofFindings fs dirtyBytes).summary.dirtyBytes = dirtyBytes := rfl

theorem count_foldl_add (fs : List Finding) (k : Classification) :
    (fs.foldl add {}).summary.count k =
      UInt32.ofNat (fs.countP fun f => decide (f.classification = k)) := by
  have h := counter_foldl_add (·.count k) (fun c => decide (c = k)) (Summary.count_record k) fs {}
  cases k <;> rwa [show Summary.count {} _ = 0 from rfl, UInt32.zero_add] at h

theorem unsafeFindings_foldl_add (fs : List Finding) :
    (fs.foldl add {}).summary.unsafeFindings =
      UInt32.ofNat (fs.countP (·.classification.isUnsafe)) := by
  have h := counter_foldl_add _ _ Summary.unsafeFindings_record fs {}
  rwa [UInt32.zero_add] at h

theorem unsafeFindings_ofFindings (fs : List Finding) (dirtyBytes : Position) :
    (ofFindings fs dirtyBytes).summary.unsafeFindings =
      UInt32.ofNat (fs.countP (·.classification.isUnsafe)) :=
  unsafeFindings_foldl_add fs

theorem count_ofFindings (fs : List Finding) (dirtyBytes : Position) (k : Classification) :
    (ofFindings fs dirtyBytes).summary.count k =
      UInt32.ofNat (fs.countP fun f => decide (f.classification = k)) := by
  rw [← count_foldl_add]
  cases k <;> rfl

/-- Without a hazard the counter stays at zero, so it cannot overflow. -/
theorem hasUnsafeFindings_of_forall {fs : List Finding} (dirtyBytes : Position)
    (h : ∀ f ∈ fs, f.classification.isUnsafe = false) :
    (ofFindings fs dirtyBytes).hasUnsafeFindings = false := by
  have hzero : fs.countP (·.classification.isUnsafe) = 0 := by
    rw [List.countP_eq_zero]
    intro f hf
    rw [h f hf]
    exact Bool.false_ne_true
  rw [hasUnsafeFindings, unsafeFindings_ofFindings, hzero]
  rfl

/-- A hazard is reported when there is one, unless the counter overflows. -/
theorem hasUnsafeFindings_ofFindings {fs : List Finding} (dirtyBytes : Position)
    (hlen : fs.length < 2 ^ 32) :
    (ofFindings fs dirtyBytes).hasUnsafeFindings = false ↔
      ∀ f ∈ fs, f.classification.isUnsafe = false := by
  have hle : fs.countP (·.classification.isUnsafe) < 2 ^ 32 :=
    Nat.lt_of_le_of_lt List.countP_le_length hlen
  have hzero : UInt32.ofNat (fs.countP (·.classification.isUnsafe)) = 0 ↔
      fs.countP (·.classification.isUnsafe) = 0 := by
    rw [← UInt32.toNat_inj, UInt32.toNat_ofNat_of_lt' hle]
    rfl
  rw [hasUnsafeFindings, unsafeFindings_ofFindings, bne_eq_false_iff_eq, hzero, List.countP_eq_zero]
  simp

end Comparison

end StorageUpgrade
