import StorageUpgrade.Proofs.Entries
import StorageUpgrade.Proofs.Safety

/-!
# What a document means

Documents agree when their records do, one by one: in the label, in the values of the numbers, and
in the type that each record finds in its own dictionary. Nothing else of a document reaches its
layout, so a comparison cannot tell documents apart that agree. It is left open where records and
members were declared, how numbers are spelled, under which keys the types of the records stand, and
which further types there are.
-/
namespace StorageUpgrade

namespace Document

/-- Two definitions of the same type. Its members are written alike, but may have been declared in
different places. -/
structure TypeDef.Agrees (t u : TypeDef) : Prop where
  label : t.label = u.label
  encoding : t.encoding = u.encoding
  size : t.size.value? = u.size.value?
  members : (t.members.getD []).map Record.member = (u.members.getD []).map Record.member

/-- Two records of the same variable, each with the type that its document defines. -/
structure Record.Agrees (d e : Document) (r s : Record) : Prop where
  label : r.label = s.label
  slot : r.slot.value? = s.slot.value?
  offset : r.offset.value? = s.offset.value?
  type : Option.Rel TypeDef.Agrees (d.resolve r.typeKey) (e.resolve s.typeKey)

/-- The records agree, one by one. -/
def Agrees (d e : Document) : Prop := List.Forall₂ (Record.Agrees d e) d.storage e.storage

variable {d e : Document} {r s : Record} {t u : TypeDef} {i : Item} {l : Layout}
variable {slot offset size : Position} {key : String}

theorem Record.place_eq (hlabel : r.label = s.label) (h : t.Agrees u) :
    r.place t slot offset size = s.place u slot offset size := by
  simp only [Record.place, hlabel, h.label, h.encoding, h.members]

/-- Records that agree have the same variable. -/
theorem Record.Agrees.item_eq (h : r.Agrees d e s) (hr : d.item r = .ok i) : e.item s = .ok i := by
  obtain ⟨t, slot, offset, size, hres, rfl⟩ := item_eq_ok_iff.1 hr
  have htype := h.type
  rw [hres.type_eq] at htype
  cases hu : e.resolve s.typeKey with
  | none =>
    rw [hu] at htype
    cases htype
  | some u =>
    rw [hu] at htype
    cases htype with
    | some htu =>
      have hres' : e.Resolves s u slot offset size :=
        { hres with
          type_eq := hu
          size_eq := htu.size ▸ hres.size_eq
          slot_eq := h.slot ▸ hres.slot_eq
          offset_eq := h.offset ▸ hres.offset_eq }
      exact item_eq_ok_iff.2 ⟨u, slot, offset, size, hres', Record.place_eq h.label htu⟩

/-- Documents that agree have the same layout. -/
theorem Agrees.layout_eq (h : d.Agrees e) (hd : d.layout = .ok l) : e.layout = .ok l := by
  obtain ⟨is, his, rfl⟩ := layout_eq_ok_iff.1 hd
  have hes : e.items = .ok is :=
    mapM_eq_ok_of_forall₂ h (fun _ _ _ hrs hr => hrs.item_eq hr) his
  exact layout_eq_ok_iff.2 ⟨is, hes, rfl⟩

/-- Every record of a document with a layout finds its type. -/
theorem exists_resolve (hd : d.layout = .ok l) (hr : r ∈ d.storage) :
    ∃ t, d.resolve r.typeKey = some t := by
  obtain ⟨is, his, _⟩ := layout_eq_ok_iff.1 hd
  obtain ⟨i, hi⟩ := exists_ok_of_mem his hr
  obtain ⟨t, _, _, _, hres, _⟩ := item_eq_ok_iff.1 hi
  exact ⟨t, hres.type_eq⟩

/-- Another way to write documents: other places of declaration, other spellings of numbers, other
keys of the types that records refer to, and types that nothing refers to. -/
structure Respelling where
  astId : Record → Option UInt64
  contract : Record → Option String
  numeral : Numeral → Numeral
  value?_numeral : ∀ n, (numeral n).value? = n.value?
  typeKey : String → String
  typeKey_injective : typeKey.Injective
  further : Dictionary TypeDef

namespace Respelling

variable (ρ : Respelling)

def member (r : Record) : Record := { r with astId := ρ.astId r, contract := ρ.contract r }

def record (r : Record) : Record :=
  { ρ.member r with
    slot := ρ.numeral r.slot
    offset := ρ.numeral r.offset
    typeKey := ρ.typeKey r.typeKey }

def typeDef (t : TypeDef) : TypeDef :=
  { t with
    size := ρ.numeral t.size
    members := t.members.map (·.map ρ.member) }

def entry (e : String × TypeDef) : String × TypeDef := (ρ.typeKey e.1, ρ.typeDef e.2)

/-- The types of a document under their other keys, among further ones. -/
def types (ts : Option (Dictionary TypeDef)) : Dictionary TypeDef :=
  match ts with
  | none => ρ.further
  | some ts => ρ.further.insertAll (ts.entries.map ρ.entry)

def document (d : Document) : Document := ⟨d.storage.map ρ.record, some (ρ.types d.types)⟩

theorem resolve_document (h : d.resolve key = some t) :
    (ρ.document d).resolve (ρ.typeKey key) = some (ρ.typeDef t) := by
  obtain ⟨ts, hts, hfind⟩ := Option.bind_eq_some_iff.1 h
  have hkeys : ((ts.entries.map ρ.entry).map (·.1)).Nodup := by
    have := ts.nodup_keys.map ρ.typeKey_injective
    rwa [List.map_map] at this ⊢
  have hmem : ρ.entry (key, t) ∈ ts.entries.map ρ.entry :=
    List.mem_map_of_mem (Dictionary.mem_of_find? hfind)
  have hfound : (ρ.types d.types).find? (ρ.typeKey key) = some (ρ.typeDef t) := by
    rw [hts]
    exact Dictionary.find?_insertAll_of_mem hkeys hmem
  exact hfound

theorem agrees_typeDef (t : TypeDef) : t.Agrees (ρ.typeDef t) where
  label := rfl
  encoding := rfl
  size := (ρ.value?_numeral t.size).symm
  members := by
    cases hm : t.members with
    | none => simp [typeDef, hm]
    | some ms =>
      simp only [typeDef, hm, Option.map_some, Option.getD_some, List.map_map]
      rfl

/-- A document agrees with itself written in another way. -/
theorem agrees_document (hd : d.layout = .ok l) : d.Agrees (ρ.document d) := by
  refine List.forall₂_map_right_iff.2 (List.forall₂_same.2 fun r hr => ?_)
  obtain ⟨t, ht⟩ := exists_resolve hd hr
  exact
    { label := rfl
      slot := (ρ.value?_numeral r.slot).symm
      offset := (ρ.value?_numeral r.offset).symm
      type := by
        rw [ht, record, ρ.resolve_document ht]
        exact .some (ρ.agrees_typeDef t) }

end Respelling

end Document

variable {d e : Document} {l : Layout}

/-- Only the meaning of a document reaches a comparison. A document that agrees with one that has a
layout has the same layout: there is no change between the two, and each stands for the other in
every comparison. -/
theorem compareDocuments_of_agrees (h : d.Agrees e) (hd : d.layout = .ok l) :
    e.layout = .ok l ∧
      compareDocuments d e = some (.ok { summaryText := "No changes" }) ∧
      (∀ x, compareDocuments d x = compareDocuments e x ∧
        compareDocuments x d = compareDocuments x e) ∧
      ∀ ρ : Document.Respelling, d.Agrees (ρ.document d) := by
  have he : e.layout = .ok l := h.layout_eq hd
  refine ⟨he, ?_, fun x => ⟨?_, ?_⟩, fun ρ => ρ.agrees_document hd⟩
  · rw [compareDocuments_of_layouts hd he]
    exact if_pos rfl
  · simp only [compareDocuments, hd, he]
  · simp only [compareDocuments, hd, he]

/-- A vault with a word and a struct, as the compiler writes it. -/
def Document.vault : Document where
  storage := [
    ⟨some 3, some "Vault.sol:Vault", "total", .word 0, .text "0", "t_uint256"⟩,
    ⟨some 9, some "Vault.sol:Vault", "limits", .word 0, .text "1", "t_struct(Limits)7_storage"⟩]
  types := some ⟨[
    ("t_struct(Limits)7_storage", ⟨"inplace", "struct Limits", .text "32",
      some [⟨some 5, some "Vault.sol:Vault", "cap", .word 0, .text "0", "t_uint256"⟩]⟩),
    ("t_uint256", ⟨"inplace", "uint256", .text "32", none⟩)], by decide⟩

/-- The same vault, declared in another file and with its numbers in hexadecimal. The word has its
type under another key, and there is a type that no record refers to. -/
def Document.vaultRedeclared : Document where
  storage := [
    ⟨none, none, "total", .text "0x0", .word 0, "word"⟩,
    ⟨some 14, some "Base.sol:Base", "limits", .text " 0 ", .text "0X1", "limits"⟩]
  types := some ⟨[
    ("limits", ⟨"inplace", "struct Limits", .text "0x20",
      some [⟨none, some "Base.sol:Base", "cap", .word 0, .text "0", "t_uint256"⟩]⟩),
    ("t_bool", ⟨"inplace", "bool", .word 1, none⟩),
    ("word", ⟨"inplace", "uint256", .word 32, some []⟩)], by decide⟩

/-- Nothing has changed between the two declarations of the vault. -/
theorem compareDocuments_of_agrees_vault :
    compareDocuments .vault .vaultRedeclared = some (.ok { summaryText := "No changes" }) := by
  have hlayout : Document.vault.layout = .ok [
      .inplace "total" "uint256" 0 32,
      { Item.inplace "limits" "struct Limits" 32 32 with
        type := ⟨"struct Limits", "inplace", 32, [⟨"cap", "t_uint256", .text "0", .word 0⟩]⟩ }] :=
    Document.layout_of_items (by decide +kernel) (by decide)
  have hagrees : Document.vault.Agrees .vaultRedeclared :=
    .cons ⟨rfl, by decide +kernel, by decide +kernel, .some ⟨rfl, rfl, by decide +kernel, rfl⟩⟩ <|
      .cons ⟨rfl, by decide +kernel, by decide +kernel, .some ⟨rfl, rfl, by decide +kernel, rfl⟩⟩
        .nil
  exact (compareDocuments_of_agrees hagrees hlayout).2.1

end StorageUpgrade
