import Mathlib.Data.List.Basic
import StorageUpgrade.Comparison.Record
import StorageUpgrade.Proofs.RoundTrip

/-!
# Nothing is lost in writing

Documents, layouts, findings and summaries are the same after they have been written and read back.
Positions are written in full, so they only have to be below their limit.
-/
namespace StorageUpgrade

open Function (LeftInverse)
open Json (Reordered Spacing maxDepth spell toList_compact toList_pretty)

section Data

variable {α β : Type} {f : α → β} {g : β → α}

theorem leftInverse_option (h : LeftInverse g f) : LeftInverse (Option.map g) (Option.map f) := by
  intro o
  cases o with
  | none => rfl
  | some x => exact congrArg some (h x)

theorem leftInverse_dictionary (h : LeftInverse g f) :
    LeftInverse (Dictionary.map g) (Dictionary.map f) := by
  have hentry : LeftInverse (fun e : String × β => (e.1, g e.2)) fun e => (e.1, f e.2) :=
    fun e => Prod.ext rfl (h e.2)
  exact fun d => Dictionary.ext (hentry.list_map d.entries)

theorem Document.Record.ofData_toData {name : String} :
    LeftInverse (ofData : (recordSchema name).Data → Record) toData :=
  fun _ => rfl

theorem Document.TypeDef.ofData_toData : LeftInverse ofData toData := by
  intro t
  exact congrArg (TypeDef.mk t.encoding t.label t.size)
    (leftInverse_option Record.ofData_toData.list_map t.members)

theorem Document.ofData_toData : LeftInverse ofData toData := by
  intro d
  have htypes := leftInverse_option (leftInverse_dictionary TypeDef.ofData_toData)
  exact congrArg₂ Document.mk (Record.ofData_toData.list_map d.storage) (htypes d.types)

theorem Member.ofData_toData : LeftInverse Member.ofData Member.toData := fun _ => rfl

theorem TypeInfo.ofData_toData : LeftInverse TypeInfo.ofData TypeInfo.toData := by
  intro t
  exact congrArg (TypeInfo.mk t.label t.encoding t.size)
    (Member.ofData_toData.list_map t.members)

theorem Item.ofData_toData : LeftInverse Item.ofData Item.toData := by
  intro i
  exact congrArg (Item.mk i.label i.start i.stop · i.slot i.offset) (TypeInfo.ofData_toData i.type)

theorem Classification.ofData_toData : LeftInverse Classification.ofData Classification.toData := by
  intro c
  cases c <;> rfl

theorem View.ofData_toData : LeftInverse View.ofData View.toData := fun _ => rfl

theorem Finding.ofData_toData : LeftInverse Finding.ofData Finding.toData := by
  intro f
  have hviews := leftInverse_option View.ofData_toData
  have hsides := congrArg₂ (Finding.mk f.classification f.start) (hviews f.old) (hviews f.new)
  have hclassification := Classification.ofData_toData f.classification
  exact (congrArg (Finding.mk · f.start _ _) hclassification).trans hsides

theorem Summary.ofData_toData : LeftInverse Summary.ofData Summary.toData := fun _ => rfl

end Data

section Schemas

theorem Document.schema_sound : schema.Sound := by
  simp [schema, typeSchema, recordSchema, Schema.Sound, Fields.Sound, Fields.names, Schema.isOption]

theorem Layout.schema_sound : schema.Sound := by
  simp [schema, Item.schema, TypeInfo.schema, Member.schema, Schema.Sound, Fields.Sound,
    Fields.names]

theorem Finding.schema_sound : schema.Sound := by
  simp [schema, View.schema, Classification.schema, Classification.all, Classification.name,
    Schema.Sound, Fields.Sound, Fields.names, Schema.isOption]

theorem Summary.schema_sound : schema.Sound := by
  simp [schema, Schema.Sound, Fields.Sound, Fields.names]

theorem Document.schema_levels : schema.levels ≤ maxDepth := by decide

theorem Document.recordSchema_fits {name : String} (x : (recordSchema name).Data) :
    (recordSchema name).Fits x :=
  ⟨fun _ _ => trivial, fun _ _ => trivial, trivial, trivial, trivial, trivial, trivial⟩

theorem Document.typeSchema_fits (x : typeSchema.Data) : typeSchema.Fits x :=
  ⟨trivial, trivial, trivial, fun _ _ r _ => recordSchema_fits r, trivial⟩

/-- A document has no positions. -/
theorem Document.schema_fits (x : schema.Data) : schema.Fits x :=
  ⟨fun r _ => recordSchema_fits r, fun _ _ e _ => typeSchema_fits e.2, trivial⟩

/-- All positions of a variable are below their limit. -/
structure Item.Bounded (i : Item) : Prop where
  start : i.start < Position.limit
  stop : i.stop < Position.limit
  size : i.type.size < Position.limit
  slot : i.slot < Position.limit

theorem Layout.schema_fits {l : Layout} (h : ∀ i ∈ l, i.Bounded) :
    schema.Fits (l.map Item.toData) := by
  intro x hx
  obtain ⟨i, hi, rfl⟩ := List.mem_map.1 hx
  obtain ⟨hstart, hstop, hsize, hslot⟩ := h i hi
  have hmember (m : Member.schema.Data) : Member.schema.Fits m :=
    ⟨trivial, trivial, trivial, trivial, trivial⟩
  exact ⟨trivial, hstart, hstop, ⟨trivial, trivial, hsize, fun m _ => hmember m, trivial⟩, hslot,
    trivial, trivial⟩

structure View.Bounded (v : View) : Prop where
  slot : v.slot < Position.limit
  start : v.start < Position.limit
  stop : v.stop < Position.limit

structure Finding.Bounded (f : Finding) : Prop where
  start : f.start < Position.limit
  old : ∀ v ∈ f.old, v.Bounded
  new : ∀ v ∈ f.new, v.Bounded

theorem View.schema_fits {o : Option View} (h : ∀ v ∈ o, v.Bounded) :
    (Schema.option schema).Fits (o.map toData) := by
  intro x hx
  obtain ⟨v, hv, rfl⟩ := Option.map_eq_some_iff.1 hx
  obtain ⟨hslot, hstart, hstop⟩ := h v hv
  exact ⟨trivial, trivial, hslot, trivial, hstart, hstop, trivial⟩

theorem Finding.schema_fits {f : Finding} (h : f.Bounded) : schema.Fits f.toData :=
  ⟨trivial, h.start, View.schema_fits h.old, View.schema_fits h.new, trivial⟩

theorem Summary.schema_fits {s : Summary} (h : s.dirtyBytes < Position.limit) :
    schema.Fits s.toData :=
  ⟨trivial, trivial, trivial, trivial, trivial, trivial, trivial, h, trivial, trivial⟩

end Schemas

/-- A record of any kind is found again in the value written for it. -/
theorem Schema.map_check_reordered {α : Type} {s : Schema} {ofData : s.Data → α}
    {toData : α → s.Data} (hsound : s.Sound) (hinverse : LeftInverse ofData toData) {x : α}
    (h : s.Fits (toData x)) {v : Json} (hv : Reordered (s.encode (toData x)) v) :
    (s.check v).map ofData = .ok x := by
  rw [Schema.check_reordered s hsound _ h v hv]
  exact congrArg Except.ok (hinverse x)

theorem Document.ofText_of_spelling {σ : Spacing} {d : Document} {v : Json}
    (hv : Reordered d.toJson v) {text : String} (h : text.toList = spell σ 0 v) :
    ofText text = .ok d := by
  have hdata : schema.ofText text = .ok d.toData :=
    Schema.ofText_of_spelling schema_sound schema_levels (schema_fits _) hv h
  rw [ofText, hdata]
  exact congrArg Except.ok (ofData_toData d)

/-- Every document, layout, finding and summary is found again in the value that is written for it,
in whatever order its members stand. A document that was read from a text is read again from both
texts of that value. -/
theorem json_round_trip :
    (∀ (d : Document) (v : Json), Reordered d.toJson v → Document.ofJson v = .ok d) ∧
      (∀ l : Layout, (∀ i ∈ l, i.Bounded) → ∀ v, Reordered l.toJson v → Layout.ofJson v = .ok l) ∧
      (∀ f : Finding, f.Bounded → ∀ v, Reordered f.toJson v → Finding.ofJson v = .ok f) ∧
      (∀ s : Summary, s.dirtyBytes < Position.limit → ∀ v, Reordered s.toJson v →
        Summary.ofJson v = .ok s) ∧
      ∀ (text : String) (d : Document), Document.ofText text = .ok d →
        ∀ v, Reordered d.toJson v → ∀ written ∈ [v.compact, v.pretty],
          Document.ofText written = .ok d ∧
            (Document.ofText written).map Document.layout =
              (Document.ofText text).map Document.layout := by
  refine ⟨fun d v hv => ?_, fun l h v hv => ?_, fun f h v hv => ?_, fun s h v hv => ?_,
    fun text d h v hv written hwritten => ?_⟩
  · exact Schema.map_check_reordered Document.schema_sound Document.ofData_toData
      (Document.schema_fits _) hv
  · exact Schema.map_check_reordered Layout.schema_sound Item.ofData_toData.list_map
      (Layout.schema_fits h) hv
  · exact Schema.map_check_reordered Finding.schema_sound Finding.ofData_toData
      (Finding.schema_fits h) hv
  · exact Schema.map_check_reordered Summary.schema_sound Summary.ofData_toData
      (Summary.schema_fits h) hv
  · have hread : Document.ofText written = .ok d := by
      rcases List.mem_pair.1 hwritten with rfl | rfl
      · exact Document.ofText_of_spelling hv (toList_compact 0 v)
      · exact Document.ofText_of_spelling hv (toList_pretty v)
    exact ⟨hread, by rw [hread, h]⟩

/-- A variable at the far end of storage. -/
def Item.farEnd : Item where
  label := "gap"
  start := Position.limit - 32
  stop := Position.limit - 1
  type := ⟨"struct Gap", "inplace", 31, [⟨"é", "t_bool", .text "0x1f", .word 3⟩]⟩
  slot := Position.limit / 32 - 1
  offset := 18446744073709551615

/-- Its removal, with no variable in its place. -/
def Finding.farRemoval : Finding := ⟨.removed, Position.limit - 32, some (.ofItem .farEnd), none⟩

/-- A document with its members out of order, an escape and a type without members. -/
def Document.escapedText : String :=
  "\x7b\"types\": \x7b\"t_bool\": \x7b\"label\": \"bool\", \"members\": [],
    \"encoding\": \"inplace\", \"numberOfBytes\": \"1\"\x7d\x7d,
    \"storage\": [\x7b\"type\": \"t_bool\", \"slot\": \"0x1\", \"offset\": 3, \"astId\": 7,
    \"label\": \"\\u00e9\\n\"\x7d]\x7d"

def Document.escaped : Document where
  storage := [⟨some 7, none, "é\n", .word 3, .text "0x1", "t_bool"⟩]
  types := some (.ofList [("t_bool", ⟨"inplace", "bool", .text "1", some []⟩)])

theorem json_round_trip_far_end :
    Layout.ofJson (Layout.toJson [.farEnd]) = .ok [.farEnd] ∧
      Finding.ofJson Finding.farRemoval.toJson = .ok .farRemoval ∧
      Summary.ofJson (Summary.toJson { dirtyBytes := Position.limit - 1 }) =
        .ok { dirtyBytes := Position.limit - 1 } ∧
      Document.ofText Document.escaped.toJson.pretty = .ok .escaped := by
  obtain ⟨_, hlayout, hfinding, hsummary, hdocument⟩ := json_round_trip
  have hread : Document.ofText Document.escapedText = .ok .escaped := by decide +kernel
  have hitem : Item.farEnd.Bounded :=
    ⟨by decide +kernel, by decide +kernel, by decide +kernel, by decide +kernel⟩
  have hview : (View.ofItem .farEnd).Bounded :=
    ⟨by decide +kernel, by decide +kernel, by decide +kernel⟩
  have hremoval : Finding.farRemoval.Bounded := by
    refine ⟨by decide +kernel, ?_, ?_⟩
    · rintro _ ⟨⟩
      exact hview
    · rintro _ ⟨⟩
  exact ⟨hlayout _ (List.forall_mem_singleton.2 hitem) _ (.refl _), hfinding _ hremoval _ (.refl _),
    hsummary _ (by decide +kernel) _ (.refl _),
    (hdocument _ _ hread _ (.refl _) _ (.tail _ (.head _))).1⟩

end StorageUpgrade
