import Mathlib.Data.List.Nodup
import Mathlib.Data.List.Perm.Basic
import StorageUpgrade.Proofs.Entries
import StorageUpgrade.Proofs.Reordering
import StorageUpgrade.Schema.Encode

/-!
# The members of records and dictionaries, in any order

A record is read member by member, and what is known of its fields grows with every key. Once all
keys have been seen the fields are complete, whatever the order was: fields without a member are
those that were left out for having their default value.
-/
namespace StorageUpgrade

open Json (Reordered ReorderedMembers InTurn)

def Schema.isOption : Schema → Bool
  | .option _ => true
  | _ => false

def Fields.names : Fields → List String
  | .nil => []
  | .cons name _ _ rest => name :: rest.names

mutual

/-- Names are kept apart, and no option stands right inside of an option, where one null would be
two values. -/
def Schema.Sound : Schema → Prop
  | .choice names => names.Nodup
  | .list element => element.Sound
  | .option value => value.isOption = false ∧ value.Sound
  | .dictionary value => value.Sound
  | .record _ fields => fields.Sound
  | _ => True

def Fields.Sound : Fields → Prop
  | .nil => True
  | .cons name _ schema rest => name ∉ rest.names ∧ schema.Sound ∧ rest.Sound

end

/-- What is known of a field and of those behind it. -/
def Fields.slots {name : String} {presence : Presence} {schema : Schema} {rest : Fields}
    (slot : Option schema.Data) (others : rest.Partial) :
    (Fields.cons name presence schema rest).Partial :=
  (slot, others)

/-- What is known of the fields once the members under these keys have been looked at. -/
def Fields.filled : (f : Fields) → f.Data → List String → f.Partial
  | .nil, _, _ => ()
  | .cons name _ _ rest, (x, xs), keys =>
    slots (if name ∈ keys then some x else none) (rest.filled xs keys)

/-- The member under a key stands for the field with this name. -/
def Fields.Holds (P : (s : Schema) → s.Data → Json → Prop) :
    (f : Fields) → f.Data → String → Json → Prop
  | .nil, _, _, _ => False
  | .cons name _ schema rest, (x, xs), key, v =>
    key = name ∧ P schema x v ∨ key ≠ name ∧ rest.Holds P xs key v

section Filled

variable {keys others : List String} {key : String}

theorem Fields.filled_nil : (f : Fields) → (x : f.Data) → f.filled x [] = f.noneRead
  | .nil, _ => rfl
  | .cons _ _ _ rest, (_, xs) => congrArg (Prod.mk none) (rest.filled_nil xs)

theorem Fields.filled_congr : (f : Fields) → (x : f.Data) →
    (∀ name ∈ f.names, name ∈ keys ↔ name ∈ others) → f.filled x keys = f.filled x others
  | .nil, _, _ => rfl
  | .cons name _ _ rest, (x, xs), h => by
    obtain ⟨hname, hnames⟩ := List.forall_mem_cons.1 h
    rw [filled, filled, rest.filled_congr xs hnames]
    simp only [hname]

/-- A key that is not the name of any field fills none. -/
theorem Fields.filled_cons_of_not_mem (f : Fields) (x : f.Data) (h : key ∉ f.names) :
    f.filled x (key :: keys) = f.filled x keys := by
  refine f.filled_congr x fun name hname => ?_
  have hne : name ≠ key := fun heq => h (heq ▸ hname)
  rw [List.mem_cons, or_iff_right hne]

end Filled

theorem Schema.default?_of_isDefault :
    (s : Schema) → (x : s.Data) → s.isDefault x = true → s.default? = some x
  | .list _, (_ : List _), h => congrArg some (List.isEmpty_iff.1 h).symm
  | .option _, (_ : Option _), h => congrArg some (Option.isNone_iff_eq_none.1 h).symm
  | .dictionary _, (_ : Dictionary _), h =>
    congrArg some (Dictionary.ext (List.isEmpty_iff.1 h).symm)

theorem Fields.key_mem_names {key : String} : (f : Fields) → (x : f.Data) →
    key ∈ (f.encode x).map Prod.fst → key ∈ f.names
  | .nil, _, h => nomatch h
  | .cons name presence schema rest, (x, xs), h => by
    rw [encode] at h
    split at h
    · exact .tail _ (key_mem_names rest xs h)
    · rcases List.mem_cons.1 h with rfl | h
      · exact .head _
      · exact .tail _ (key_mem_names rest xs h)

theorem Fields.nodup_keys : (f : Fields) → f.Sound → (x : f.Data) →
    ((f.encode x).map Prod.fst).Nodup
  | .nil, _, _ => .nil
  | .cons name presence schema rest, hsound, (x, xs) => by
    have hrest := nodup_keys rest hsound.2.2 xs
    rw [encode]
    split
    · exact hrest
    · exact List.nodup_cons.2 ⟨fun h => hsound.1 (rest.key_mem_names xs h), hrest⟩

/-- Fields whose members have been looked at are complete: a field that was left out is found to be
missing and gets its value back. -/
theorem Fields.complete_filled {keys : List String} : (f : Fields) → f.Sound → (x : f.Data) →
    (∀ name ∈ f.names, name ∈ keys ↔ name ∈ (f.encode x).map Prod.fst) →
    f.complete (f.filled x keys) = .ok x
  | .nil, _, _, _ => rfl
  | .cons name presence schema rest, hsound, (x, xs), h => by
    obtain ⟨hname, hnames⟩ := List.forall_mem_cons.1 h
    have hkey : name ∉ (rest.encode xs).map Prod.fst := fun hmem =>
      hsound.1 (rest.key_mem_names xs hmem)
    have hslot : ((if name ∈ keys then some x else none) <|> schema.absent? presence) = some x := by
      rw [encode] at hname
      split at hname
      · next homitted =>
        obtain ⟨hpresence, hdefault⟩ := Bool.and_eq_true_iff.1 homitted
        obtain rfl : presence = .omitted := of_decide_eq_true hpresence
        rw [if_neg fun hmem => hkey (hname.1 hmem)]
        exact schema.default?_of_isDefault x hdefault
      · rw [if_pos (hname.2 (.head _))]
        rfl
    have hrest : rest.complete (rest.filled xs keys) = .ok xs := by
      refine complete_filled rest hsound.2.2 xs fun other hother => (hnames other hother).trans ?_
      have hne : other ≠ name := fun heq => hsound.1 (heq ▸ hother)
      rw [encode]
      split
      · exact Iff.rfl
      · rw [List.map_cons, List.mem_cons, or_iff_right hne]
    rw [filled, complete.eq_def]
    simp only [slots, hslot]
    rw [hrest]
    rfl

/-- A step of a record at a key is a step at the field with that name. It leaves the other fields as
they are. -/
structure Fields.StepsAtField (P : (s : Schema) → s.Data → Json → Prop)
    (step : (f : Fields) → String → Json → f.Partial → f.Partial → Prop) : Prop where
  here : ∀ {name presence schema rest x v}, P schema x v → ∀ others : rest.Partial,
    step (.cons name presence schema rest) name v (slots none others) (slots (some x) others)
  behind : ∀ {name presence schema rest key v} {others next : rest.Partial}, key ≠ name →
    step rest key v others next → ∀ slot : Option schema.Data,
    step (.cons name presence schema rest) key v (slots slot others) (slots slot next)

section Steps

variable {P : (s : Schema) → s.Data → Json → Prop}
  {step : (f : Fields) → String → Json → f.Partial → f.Partial → Prop}
  {ms ns ks : List (String × Json)}

theorem Fields.StepsAtField.filled (hstep : StepsAtField P step) {key : String} {v : Json}
    {keys : List String} : (f : Fields) → f.Sound → (x : f.Data) → f.Holds P x key v →
    key ∉ keys → step f key v (f.filled x keys) (f.filled x (key :: keys))
  | .nil, _, _, h, _ => nomatch h
  | .cons name presence schema rest, hsound, (x, xs), h, hnew => by
    rw [Fields.filled, Fields.filled]
    rcases h with ⟨rfl, hx⟩ | ⟨hne, hxs⟩
    · rw [if_neg hnew, if_pos List.mem_cons_self, rest.filled_cons_of_not_mem xs hsound.1]
      exact hstep.here hx _
    · have hslot : (name ∈ key :: keys) = (name ∈ keys) := by
        rw [List.mem_cons, or_iff_right hne.symm]
      simp only [hslot]
      exact hstep.behind hne (hstep.filled rest hsound.2.2 xs hxs hnew) _

/-- Members under different keys, none of which has been seen, fill their fields one by one. -/
theorem Fields.StepsAtField.inTurn (hstep : StepsAtField P step) {f : Fields} (hsound : f.Sound)
    {x : f.Data} (hnodup : (ms.map Prod.fst).Nodup) (hholds : ∀ m ∈ ms, f.Holds P x m.1 m.2)
    (keys : List String) (hnew : ∀ m ∈ ms, m.1 ∉ keys) :
    InTurn (step f) ms (f.filled x keys) (f.filled x ((ms.map Prod.fst).reverse ++ keys)) := by
  induction ms generalizing keys with
  | nil => exact .nil _
  | cons m ms ih =>
    obtain ⟨hm, hms⟩ := List.nodup_cons.1 hnodup
    obtain ⟨hholdsm, hholdsms⟩ := List.forall_mem_cons.1 hholds
    obtain ⟨hnewm, hnewms⟩ := List.forall_mem_cons.1 hnew
    have hrest : ∀ n ∈ ms, n.1 ∉ m.1 :: keys := by
      intro n hn hmem
      rcases List.mem_cons.1 hmem with heq | hmem
      · exact hm (heq ▸ List.mem_map_of_mem hn)
      · exact hnewms n hn hmem
    rw [List.map_cons, List.reverse_cons, List.append_assoc, List.singleton_append]
    exact .cons (hstep.filled f hsound x hholdsm hnewm) (ih hms hholdsms (m.1 :: keys) hrest)

/-- Every member of a record stands for a field. -/
theorem Fields.holds_of_mem {m : String × Json} : (f : Fields) → f.Sound → (x : f.Data) →
    {ns : List (String × Json)} → ReorderedMembers (f.encode x) ns → m ∈ ns →
    f.Holds (fun s x v => Reordered (s.encode x) v) x m.1 m.2
  | .nil, _, _, _, h, hm => by
    cases h
    cases hm
  | .cons name presence schema rest, hsound, (x, xs), ns, h, hm => by
    have hlater {ns : List (String × Json)} (h : ReorderedMembers (rest.encode xs) ns)
        (hm : m ∈ ns) : (Fields.cons name presence schema rest).Holds
          (fun s x v => Reordered (s.encode x) v) (x, xs) m.1 m.2 := by
      refine .inr ⟨fun heq => hsound.1 (rest.key_mem_names xs ?_),
        holds_of_mem rest hsound.2.2 xs h hm⟩
      rw [← h.keys_eq, ← heq]
      exact List.mem_map_of_mem hm
    rw [encode] at h
    split at h
    · exact hlater h hm
    · cases h with
      | cons _ hhead htail =>
        rcases List.mem_cons.1 hm with rfl | hm
        · exact .inl ⟨rfl, hhead⟩
        · exact hlater htail hm

/-- The members of a record, in any order, leave complete fields behind. -/
theorem Fields.StepsAtField.exists_inTurn (hstep : StepsAtField P step) {f : Fields}
    (hsound : f.Sound) {x : f.Data} (h : ReorderedMembers (f.encode x) ns) (hperm : ns.Perm ks)
    (hP : ∀ key v, f.Holds (fun s x v => Reordered (s.encode x) v) x key v → f.Holds P x key v) :
    ∃ last, InTurn (step f) ks f.noneRead last ∧ f.complete last = .ok x := by
  have hkeys : ((f.encode x).map Prod.fst).Perm (ks.map Prod.fst) :=
    h.keys_eq ▸ hperm.map Prod.fst
  have hholds : ∀ m ∈ ks, f.Holds P x m.1 m.2 := fun m hm =>
    hP m.1 m.2 (f.holds_of_mem hsound x h (hperm.mem_iff.2 hm))
  have hturn := hstep.inTurn hsound (hkeys.nodup_iff.1 (f.nodup_keys hsound x)) hholds []
    fun _ _ => List.not_mem_nil
  rw [f.filled_nil x] at hturn
  refine ⟨_, hturn, f.complete_filled hsound x fun name _ => ?_⟩
  rw [List.append_nil, List.mem_reverse]
  exact hkeys.mem_iff.symm

/-- The members of a dictionary, in any order, stand for its entries. -/
theorem exists_entries {α : Type} {form : α → Json} {d : Dictionary α}
    (h : ReorderedMembers (d.entries.map fun e => (e.1, form e.2)) ns) (hperm : ns.Perm ks) :
    ∃ es, d.entries.Perm es ∧
      List.Forall₂ (fun e m => m.1 = e.1 ∧ Reordered (form e.2) m.2) es ks := by
  have hentries := List.forall₂_map_left_iff.1 h.forall₂
  obtain ⟨es, hes, hperm⟩ := List.perm_comp_forall₂ hperm.symm hentries.flip
  exact ⟨es, hperm.symm, hes.flip⟩

end Steps

end StorageUpgrade
