import StorageUpgrade.Overlay
import StorageUpgrade.Proofs.Uncovered

/-!
# The sweep over two layouts

A pass does one of six things. A run has a result when there is an end to its passes, and the result
is what the passes emit. As long as every new variable holds a byte each pass lowers the rank of the
state, so that there is an end.
-/
namespace StorageUpgrade

namespace Overlay

namespace Part

/-- The variable of a part. -/
def item? : Part → Option Item
  | item i => some i
  | dirty _ => none

/-- The range of a part that is dirty. -/
def dirty? : Part → Option ByteRange
  | item _ => none
  | dirty r => some r

theorem mem_filterMap_item? {ps : List Part} {i : Item} :
    i ∈ ps.filterMap item? ↔ .item i ∈ ps := by
  simp only [List.mem_filterMap]
  constructor
  · rintro ⟨_ | _, hp, h⟩ <;> cases h
    exact hp
  · exact fun h => ⟨_, h, rfl⟩

theorem mem_filterMap_dirty? {ps : List Part} {r : ByteRange} :
    r ∈ ps.filterMap dirty? ↔ .dirty r ∈ ps := by
  simp only [List.mem_filterMap]
  constructor
  · rintro ⟨_ | _, hp, h⟩ <;> cases h
    exact hp
  · exact fun h => ⟨_, h, rfl⟩

/-- Parts of which none is dirty are variables. -/
theorem eq_map_item {ps : List Part} (h : ps.filterMap dirty? = []) :
    ps = (ps.filterMap item?).map item := by
  induction ps with
  | nil => rfl
  | cons p ps ih =>
    cases p with
    | item i => exact congrArg (item i :: ·) (ih h)
    | dirty r => cases h

end Part

namespace Sweep

/-- What is emitted of a range that a variable cuts: its bytes below the variable. -/
def lead (r : ByteRange) (n : Item) : List Part :=
  if r.start < n.start then [.dirty ⟨r.start, n.start⟩] else []

theorem lead_eq_nil_or (r : ByteRange) (n : Item) :
    lead r n = [] ∨ r.start < n.start ∧ lead r n = [.dirty ⟨r.start, n.start⟩] := by
  unfold lead
  split_ifs with h
  · exact .inr ⟨h, rfl⟩
  · exact .inl rfl

@[simp] theorem filterMap_item?_lead (r : ByteRange) (n : Item) :
    (lead r n).filterMap Part.item? = [] := by
  unfold lead
  split_ifs <;> rfl

@[simp] theorem filterMap_dirty?_lead (r : ByteRange) (n : Item) :
    (lead r n).filterMap Part.dirty? = if r.start < n.start then [⟨r.start, n.start⟩] else [] := by
  unfold lead
  split_ifs <;> rfl

/-- The passes that there are. -/
inductive Step : Sweep → List Part → Sweep → Prop
  /-- No range remains. -/
  | append {n ns} : Step ⟨[], n :: ns⟩ [.item n] ⟨[], ns⟩
  /-- No variable is pending. -/
  | abandon {r rs} : Step ⟨r :: rs, []⟩ [.dirty r] ⟨rs, []⟩
  /-- The variable starts first. -/
  | place {r rs n ns} (first : n.start < r.start) :
      Step ⟨r :: rs, n :: ns⟩ [.item n] ⟨supersede n.stop (r :: rs), ns⟩
  /-- The range ends before the variable starts. -/
  | leave {r rs n ns} (first : r.start ≤ n.start) (below : r.stop ≤ n.start) :
      Step ⟨r :: rs, n :: ns⟩ [.dirty r] ⟨rs, n :: ns⟩
  /-- The variable ends within the range. -/
  | cut {r rs n ns} (first : r.start ≤ n.start) (meet : n.start < r.stop)
      (within : n.stop < r.stop) :
      Step ⟨r :: rs, n :: ns⟩ (lead r n) ⟨⟨n.stop, r.stop⟩ :: rs, n :: ns⟩
  /-- The range ends under the variable. -/
  | bury {r rs n ns} (first : r.start ≤ n.start) (meet : n.start < r.stop)
      (under : r.stop ≤ n.stop) :
      Step ⟨r :: rs, n :: ns⟩ (lead r n) ⟨rs, n :: ns⟩

/-- Parts of a run of the loop to its end. -/
inductive Emits : Sweep → List Part → Prop
  | done : Emits ⟨[], []⟩ []
  | step {s t ps qs} : Step s ps t → Emits t qs → Emits s (ps ++ qs)

variable {s t : Sweep} {ps qs : List Part}

theorem step_of_pass (h : s.pass = some (ps, t)) : Step s ps t := by
  obtain ⟨_ | ⟨r, rs⟩, _ | ⟨n, ns⟩⟩ := s
  · simp [pass] at h
  · simp only [pass, Option.some.injEq, Prod.mk.injEq] at h
    obtain ⟨rfl, rfl⟩ := h
    exact .append
  · simp only [pass, Option.some.injEq, Prod.mk.injEq] at h
    obtain ⟨rfl, rfl⟩ := h
    exact .abandon
  · rw [pass] at h
    by_cases hfirst : n.start < r.start
    · rw [if_pos hfirst, Option.some.injEq, Prod.mk.injEq] at h
      obtain ⟨rfl, rfl⟩ := h
      exact .place hfirst
    by_cases hbelow : r.stop ≤ n.start
    · rw [if_neg hfirst, if_pos hbelow, Option.some.injEq, Prod.mk.injEq] at h
      obtain ⟨rfl, rfl⟩ := h
      exact .leave (not_lt.1 hfirst) hbelow
    rw [if_neg hfirst, if_neg hbelow] at h
    by_cases hwithin : n.stop < r.stop
    · rw [if_pos hwithin, Option.some.injEq, Prod.mk.injEq] at h
      obtain ⟨rfl, rfl⟩ := h
      exact .cut (not_lt.1 hfirst) (not_le.1 hbelow) hwithin
    · rw [if_neg hwithin, Option.some.injEq, Prod.mk.injEq] at h
      obtain ⟨rfl, rfl⟩ := h
      exact .bury (not_lt.1 hfirst) (not_le.1 hbelow) (not_lt.1 hwithin)

theorem Step.pass_eq (h : Step s ps t) : s.pass = some (ps, t) := by
  cases h with
  | append => rfl
  | abandon => rfl
  | place first => rw [pass, if_pos first]
  | leave first below => rw [pass, if_neg (not_lt.2 first), if_pos below]
  | cut first meet within =>
    rw [pass, if_neg (not_lt.2 first), if_neg (not_le.2 meet), if_pos within]
    rfl
  | bury first meet under =>
    rw [pass, if_neg (not_lt.2 first), if_neg (not_le.2 meet), if_neg (not_lt.2 under)]
    rfl

theorem pass_eq_none (h : s.pass = none) : s = ⟨[], []⟩ := by
  obtain ⟨_ | ⟨r, rs⟩, _ | ⟨n, ns⟩⟩ := s
  · rfl
  · simp [pass] at h
  · simp [pass] at h
  · rw [pass] at h
    split_ifs at h

/-- Passes that can follow: one for each range, and two for each variable unless the first of them
is about to be placed. -/
def rank : Sweep → Nat
  | ⟨r :: rs, n :: ns⟩ =>
    rs.length + 2 * ns.length + if n.start < r.start then 2 else 3
  | ⟨rs, ns⟩ => rs.length + 2 * ns.length

theorem rank_le (s : Sweep) : s.rank ≤ s.remaining.length + 2 * s.pending.length := by
  obtain ⟨_ | ⟨r, rs⟩, _ | ⟨n, ns⟩⟩ := s <;> simp only [rank, List.length_cons] <;> grind

theorem length_supersede_le (stop : Position) (rs : List ByteRange) :
    (supersede stop rs).length ≤ rs.length := by
  induction rs with
  | nil => rfl
  | cons r rs ih =>
    unfold supersede
    split_ifs <;> simp only [List.length_cons]
    · omega
    all_goals exact le_rfl

theorem Step.pending_suffix (h : Step s ps t) : t.pending <:+ s.pending := by
  cases h
  case append | place => exact List.suffix_cons _ _
  all_goals exact List.suffix_rfl

/-- Variables that are still pending hold a byte if all of them do. -/
theorem Step.pos (h : Step s ps t) (hpos : ∀ n ∈ s.pending, n.start < n.stop) :
    ∀ n ∈ t.pending, n.start < n.stop :=
  fun n hn => hpos n (h.pending_suffix.mem hn)

theorem Step.rank_lt (h : Step s ps t) (hpos : ∀ n ∈ s.pending, n.start < n.stop) :
    t.rank < s.rank := by
  have hle := t.rank_le
  cases h with
  | @append n ns => simp only [rank, List.length_nil, List.length_cons] at hle ⊢; omega
  | @abandon r rs => simp only [rank, List.length_nil, List.length_cons] at hle ⊢; omega
  | @place r rs n ns first =>
    have hlen := length_supersede_le n.stop (r :: rs)
    simp only [rank, if_pos first, List.length_cons] at hle hlen ⊢
    omega
  | @leave r rs n ns first below =>
    simp only [rank, if_neg (not_lt.2 first), List.length_cons] at hle ⊢
    omega
  | @cut r rs n ns first meet within =>
    -- The pass keeps both lists as long as they are, but the variable is placed next.
    have hn : n.start < n.stop := hpos n (by simp)
    simp only [rank, if_neg (not_lt.2 first), if_pos hn]
    omega
  | @bury r rs n ns first meet under =>
    simp only [rank, if_neg (not_lt.2 first), List.length_cons] at hle ⊢
    omega

/-- As long as the pending variables hold a byte there is an end to the passes. -/
theorem exists_emits (hpos : ∀ n ∈ s.pending, n.start < n.stop) : ∃ ps, Emits s ps := by
  induction hrank : s.rank using Nat.strong_induction_on generalizing s with
  | h rank ih =>
    cases hp : s.pass with
    | none =>
      rw [pass_eq_none hp]
      exact ⟨[], .done⟩
    | some q =>
      have hstep := step_of_pass hp
      obtain ⟨ps, hrest⟩ := ih _ (hrank ▸ hstep.rank_lt hpos) (hstep.pos hpos) rfl
      exact ⟨_, .step hstep hrest⟩

theorem run_of_pass_eq_none (h : s.pass = none) (emitted : List Part) :
    s.run emitted = some emitted := by
  rw [run, h]

theorem run_of_pass (h : s.pass = some (ps, t)) (emitted : List Part) :
    s.run emitted = t.run (emitted ++ ps) := by
  rw [run, h]

/-- What the passes emit is the result of the run. -/
theorem Emits.run_eq (h : Emits s ps) (emitted : List Part) :
    s.run emitted = some (emitted ++ ps) := by
  induction h generalizing emitted with
  | done => rw [run_of_pass_eq_none rfl, List.append_nil]
  | step hstep _ ih => rw [run_of_pass hstep.pass_eq, ih, List.append_assoc]

/-- A result comes from passes that have an end. -/
theorem exists_emits_of_run {emitted : List Part} (h : s.run emitted = some qs) :
    ∃ ps, Emits s ps ∧ qs = emitted ++ ps := by
  refine run.partial_correctness (fun emitted s qs => ∃ ps, Emits s ps ∧ qs = emitted ++ ps) ?_
    emitted s qs h
  intro loop ih emitted s qs h
  cases hp : s.pass with
  | none =>
    rw [hp] at h
    cases h
    rw [pass_eq_none hp]
    exact ⟨[], .done, (List.append_nil _).symm⟩
  | some q =>
    rw [hp] at h
    obtain ⟨ps, hrest, rfl⟩ := ih _ _ _ h
    exact ⟨_, .step (step_of_pass hp) hrest, List.append_assoc ..⟩

theorem run_eq_some_iff : s.run [] = some ps ↔ Emits s ps := by
  constructor
  · intro h
    obtain ⟨ps, hps, rfl⟩ := exists_emits_of_run h
    exact hps
  · exact fun h => h.run_eq []

/-- What the passes emit if there are fewer than this many. -/
def emittedWithin : Nat → Sweep → Option (List Part)
  | 0, _ => none
  | bound + 1, s =>
    match s.pass with
    | none => some []
    | some (ps, t) => (emittedWithin bound t).map (ps ++ ·)

theorem emits_of_emittedWithin {bound : Nat} (h : s.emittedWithin bound = some ps) :
    Emits s ps := by
  induction bound generalizing s ps with
  | zero => cases h
  | succ bound ih =>
    unfold emittedWithin at h
    cases hp : s.pass with
    | none =>
      rw [hp] at h
      cases h
      rw [pass_eq_none hp]
      exact .done
    | some q =>
      rw [hp] at h
      obtain ⟨qs, hqs, rfl⟩ := Option.map_eq_some_iff.1 h
      exact .step (step_of_pass hp) (ih hqs)

end Sweep

end Overlay

end StorageUpgrade
