import StorageUpgrade.Proofs.Decimal
import StorageUpgrade.Proofs.Fields
import StorageUpgrade.Schema.Check

/-!
# Data written as JSON values and read back

Writing data by a schema loses nothing as long as its positions are below their limit.
-/
namespace StorageUpgrade

open Json (Reason Reordered InTurn)

mutual

/-- All positions are below the limit. -/
def Schema.Fits : (s : Schema) → s.Data → Prop
  | .position, (p : Position) => p < Position.limit
  | .list element, (xs : List element.Data) => ∀ x ∈ xs, element.Fits x
  | .option value, (o : Option value.Data) => ∀ x ∈ o, value.Fits x
  | .dictionary value, (d : Dictionary value.Data) => ∀ e ∈ d.entries, value.Fits e.2
  | .record _ fields, x => fields.Fits x
  | _, _ => True

def Fields.Fits : (f : Fields) → f.Data → Prop
  | .nil, _ => True
  | .cons _ _ schema rest, (x, xs) => schema.Fits x ∧ rest.Fits xs

end

section Checks

variable {α σ : Type} {check : Json → Except Reason α} {ms : List (String × Json)}

theorem checkElements_of_forall₂ {xs : List α} {vs : List Json}
    (h : List.Forall₂ (fun x v => check v = .ok x) xs vs) : checkElements check vs = .ok xs := by
  induction h with
  | nil => rfl
  | cons hx _ ih =>
    rw [checkElements, hx, ih]
    rfl

theorem checkMembers_of_forall₂ {es : List (String × α)}
    (h : List.Forall₂ (fun e m => m.1 = e.1 ∧ check m.2 = .ok e.2) es ms) (d : Dictionary α) :
    checkMembers check ms d = .ok (d.insertAll es) := by
  induction h generalizing d with
  | nil => rfl
  | @cons e m es ms hem _ ih =>
    obtain ⟨key, v⟩ := m
    obtain ⟨rfl, he⟩ := hem
    rw [checkMembers, he]
    exact ih (d.insert e.1 e.2)

theorem checkFields_of_inTurn {store : String → Json → σ → Except Reason σ} {state last : σ}
    (h : InTurn (fun key v state next => store key v state = .ok next) ms state last) :
    checkFields store ms state = .ok last := by
  induction h with
  | nil state => rfl
  | cons hhead _ ih =>
    rw [checkFields, hhead]
    exact ih

theorem checkWord_of_lt {limit : Nat} {n : UInt64} (expected : String) (h : n.toNat < limit) :
    checkWord limit expected (.number (.natural n)) = .ok n :=
  if_pos h

theorem word32_lt (n : UInt32) : n.toUInt64.toNat < 4294967296 := by
  rw [UInt32.toNat_toUInt64]
  exact n.toNat_lt

theorem word64_lt (n : UInt64) : n.toNat < 18446744073709551616 := n.toNat_lt

theorem checkName_of_nodup {names : List String} (h : names.Nodup) (i : Fin names.length) :
    checkName names (names.get i) = .ok i := by
  have hfound : names.finIdxOf? (names.get i) = some i := by
    refine List.finIdxOf?_eq_some_iff.2 ⟨rfl, fun j hj heq => ?_⟩
    have hji : j = i := Fin.ext (h.getElem_inj_iff.1 heq)
    exact absurd hj (hji ▸ Nat.lt_irrefl j.val)
  rw [checkName, hfound]

theorem Fields.store_stepsAtField : StepsAtField (fun s x v => s.check v = .ok x)
    fun f key v state next => f.store key v state = .ok next where
  here hx others := by
    refine (if_pos rfl).trans ?_
    rw [hx]
    rfl
  behind hkey hnext slot := by
    refine (if_neg hkey).trans ?_
    rw [hnext]
    rfl

/-- Only an option is written as null. -/
theorem Schema.ne_null {s : Schema} {x : s.Data} {v : Json} (h : s.isOption = false)
    (hv : Reordered (s.encode x) v) : v ≠ .null := by
  rintro rfl
  cases s with
  | option _ => cases h
  | numeral => cases x <;> cases hv
  | _ => cases hv

theorem Schema.check_option {value : Schema} {v : Json} (h : v ≠ .null) :
    (Schema.option value).check v = (value.check v).map some := by
  cases v with
  | null => exact absurd rfl h
  | _ => rfl

theorem Schema.check_record (name : String) (fields : Fields) (ms : List (String × Json)) :
    (Schema.record name fields).check (.object ms) =
      (checkFields fields.store ms fields.noneRead).bind fun state =>
        (fields.complete state).mapError .missingField :=
  rfl

end Checks

mutual

/-- The value that was written is read back, in whatever order its members stand. -/
theorem Schema.check_reordered : (s : Schema) → s.Sound → (x : s.Data) → s.Fits x → (v : Json) →
    Reordered (s.encode x) v → s.check v = .ok x
  | .text, _, (_ : String), _, _, .string _ => rfl
  | .word32, _, (n : UInt32), _, _, .number _ =>
    calc (checkWord 4294967296 "u32" (.number (.natural n.toUInt64))).map UInt64.toUInt32
        = .ok n.toUInt64.toUInt32 := congrArg _ (checkWord_of_lt "u32" (word32_lt n))
      _ = .ok n := congrArg Except.ok (UInt32.toUInt32_toUInt64 n)
  | .word64, _, (n : UInt64), _, _, .number _ => checkWord_of_lt "u64" (word64_lt n)
  | .numeral, _, .word _, _, _, .number _ => rfl
  | .numeral, _, .text _, _, _, .string _ => rfl
  | .position, _, (p : Position), h, _, .string _ =>
    congrArg (Except.mapError Reason.badPosition) (Position.ofChars_toString h)
  | .choice _, hsound, (i : Fin _), _, _, .string _ => checkName_of_nodup hsound i
  | .list element, hsound, (_ : List element.Data), h, _, .array hvs => by
    have hxs := (List.forall₂_and_left _ _).2 ⟨h, List.forall₂_map_left_iff.1 hvs⟩
    exact checkElements_of_forall₂ (hxs.imp fun x v hxv =>
      Schema.check_reordered element hsound x hxv.1 v hxv.2)
  | .option _, _, (none : Option _), _, _, .null => rfl
  | .option value, hsound, (some x : Option _), h, v, hv => by
    have hx := Schema.check_reordered value hsound.2 x (h x rfl) v hv
    rw [Schema.check_option (value.ne_null hsound.1 hv), hx]
    rfl
  | .dictionary value, hsound, (d : Dictionary value.Data), h, _,
    @Reordered.object _ _ ks hms hperm => by
    obtain ⟨es, hes, hks⟩ := exists_entries hms hperm
    have hfits : ∀ e ∈ es, value.Fits e.2 := fun e he => h e (hes.mem_iff.2 he)
    have hentries : List.Forall₂ (fun e m => m.1 = e.1 ∧ value.check m.2 = .ok e.2) es ks :=
      ((List.forall₂_and_left _ _).2 ⟨hfits, hks⟩).imp fun e m hem =>
        ⟨hem.2.1, Schema.check_reordered value hsound e.2 hem.1 m.2 hem.2.2⟩
    have hmembers := checkMembers_of_forall₂ hentries .empty
    rw [Dictionary.insertAll_of_perm hes] at hmembers
    exact hmembers
  | .record name fields, hsound, x, h, _, .object hms hperm => by
    obtain ⟨last, hturn, hlast⟩ := Fields.store_stepsAtField.exists_inTurn hsound hms hperm
      (Fields.holds_check fields hsound x h)
    rw [Schema.check_record, checkFields_of_inTurn hturn]
    exact congrArg (Except.mapError Reason.missingField) hlast

theorem Fields.holds_check : (f : Fields) → f.Sound → (x : f.Data) → f.Fits x → (key : String) →
    (v : Json) → f.Holds (fun s x v => Reordered (s.encode x) v) x key v →
    f.Holds (fun s x v => s.check v = .ok x) x key v
  | .nil, _, _, _, _, _, h => h
  | .cons _ _ schema rest, hsound, (x, xs), hfits, key, v, h =>
    h.imp
      (fun h => ⟨h.1, Schema.check_reordered schema hsound.2.1 x hfits.1 v h.2⟩)
      (fun h => ⟨h.1, Fields.holds_check rest hsound.2.2 xs hfits.2 key v h.2⟩)

end

end StorageUpgrade
