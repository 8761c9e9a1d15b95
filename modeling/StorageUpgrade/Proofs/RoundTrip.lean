import StorageUpgrade.Proofs.Brackets
import StorageUpgrade.Proofs.Codec
import StorageUpgrade.Schema.Read

/-!
# Texts of written data, read back

Data that is written by a schema and spelled as a text is read back from that text, with any
spacing. The brackets of the text must not go deeper than the reader allows.
-/
namespace StorageUpgrade

open Json Json.Reader

mutual

/-- Levels of brackets that a text may have. -/
def Schema.levels : Schema → Nat
  | .list element => element.levels + 1
  | .option value => value.levels
  | .dictionary value => value.levels + 1
  | .record _ fields => fields.levels + 1
  | _ => 0

def Fields.levels : Fields → Nat
  | .nil => 0
  | .cons _ _ schema rest => max schema.levels rest.levels

end

variable {α β : Type} {σ : Spacing} {level : Nat}

section Beginnings

theorem isBlank_of_isDigit {c : Char} (h : c.isDigit = true) : Cursor.isBlank c = false := by
  rw [Bool.eq_false_iff]
  intro hblank
  rw [isDigit_of_goesOn (goesOn_of_isBlank hblank)] at h
  cases h

theorem head_string (s : String) : (stringText s).toList.head? = some '"' := by
  rw [toList_stringText, List.head?_cons]

theorem toList_natural (n : UInt64) : (Number.natural n).text.toList = Nat.toDigits 10 n.toNat :=
  toList_toString n.toNat

theorem exists_head_natural (n : UInt64) :
    ∃ d, (Number.natural n).text.toList.head? = some d ∧ d.isDigit = true := by
  rw [toList_natural]
  exact exists_head_decimal n.toNat

/-- Only null begins like a null. -/
theorem Schema.exists_head {s : Schema} {x : s.Data} {v : Json} (h : s.isOption = false)
    (hv : Reordered (s.encode x) v) :
    ∃ c, (spell σ level v).head? = some c ∧ Cursor.isBlank c = false ∧ c ≠ ']' ∧ c ≠ 'n' := by
  have hnatural (n : UInt64) : ∃ c, (Number.natural n).text.toList.head? = some c ∧
      Cursor.isBlank c = false ∧ c ≠ ']' ∧ c ≠ 'n' := by
    obtain ⟨d, hhead, hd⟩ := exists_head_natural n
    refine ⟨d, hhead, isBlank_of_isDigit hd, ?_, ?_⟩
    · rintro rfl
      cases hd
    · rintro rfl
      cases hd
  cases s with
  | text | position | choice =>
    cases hv
    exact ⟨'"', head_string _, by decide⟩
  | word32 | word64 =>
    cases hv
    exact hnatural _
  | numeral =>
    cases x with
    | word n =>
      cases hv
      exact hnatural n
    | text t =>
      cases hv
      exact ⟨'"', head_string t, by decide⟩
  | list element =>
    cases hv
    exact ⟨'[', rfl, by decide⟩
  | option value => cases h
  | dictionary | record =>
    cases hv
    exact ⟨'\x7b', rfl, by decide⟩

theorem Schema.begins (s : Schema) (hsound : s.Sound) {x : s.Data} {v : Json}
    (hv : Reordered (s.encode x) v) : Begins (spell σ level v) := by
  by_cases h : s.isOption = false
  · obtain ⟨c, hc, hblank, hbracket, _⟩ := exists_head h hv
    exact ⟨c, hc, hblank, hbracket⟩
  · cases s with
    | option value =>
      cases x with
      | none =>
        cases hv
        exact ⟨'n', rfl, by decide⟩
      | some x =>
        obtain ⟨c, hc, hblank, hbracket, _⟩ := exists_head hsound.1 hv
        exact ⟨c, hc, hblank, hbracket⟩
    | _ => exact absurd rfl h

end Beginnings

section Leaves

/-- A reader that looks at the first character of a value. -/
theorem reads_token {k : Option Char → Reader α} {spelling : List Char} {c : Char} {a : α}
    (hhead : spelling.head? = some c) (hc : Cursor.isBlank c = false)
    (h : ∀ rest, Ends rest → (k (some c)).Takes (spelling ++ rest) a rest) :
    Reads (peekToken >>= k) spelling a := by
  intro blanks rest hblanks hends
  obtain ⟨cs, rfl⟩ := List.head?_eq_some_iff.1 hhead
  exact takes_token hblanks hc (h rest hends)

theorem takes_natural {rest : List Char} (n : UInt64) (hrest : Ends rest) :
    readNumber.Takes ((Number.natural n).text.toList ++ rest) (.natural n) rest := by
  have h := takes_readNumber n.toNat_lt hrest
  rwa [UInt64.ofNat_toNat, ← toList_natural] at h

theorem reads_text (expected s : String) : Reads (readText expected) (stringText s).toList s :=
  reads_token (head_string s) rfl fun rest _ => takes_readString s rest

theorem reads_word {limit : Nat} {n : UInt64} (expected : String) (h : n.toNat < limit) :
    Reads (readWord limit expected) (Number.natural n).text.toList n := by
  obtain ⟨d, hhead, hd⟩ := exists_head_natural n
  refine reads_token hhead (isBlank_of_isDigit hd) fun rest hends => ?_
  simp only [hd, Bool.or_true, if_true]
  refine (takes_natural n hends).bind ?_
  rw [checkWord_of_lt expected h]
  exact takes_pure _ _

theorem readValue_eq (depth : Nat) : ∃ inner, readValue depth = valueWithin inner := by
  cases depth with
  | zero => exact ⟨none, rfl⟩
  | succ depth => exact ⟨some (readValue depth), rfl⟩

theorem reads_value_string (depth : Nat) (s : String) :
    Reads (readValue depth) (stringText s).toList (.string s) := by
  obtain ⟨inner, hinner⟩ := readValue_eq depth
  rw [hinner]
  exact reads_token (head_string s) rfl fun rest _ => (takes_readString s rest).map Json.string

theorem reads_value_natural (depth : Nat) (n : UInt64) :
    Reads (readValue depth) (Number.natural n).text.toList (.number (.natural n)) := by
  obtain ⟨inner, hinner⟩ := readValue_eq depth
  obtain ⟨d, hhead, hd⟩ := exists_head_natural n
  rw [hinner]
  refine reads_token hhead (isBlank_of_isDigit hd) fun rest hends => ?_
  -- A digit is the first character of nothing but a number.
  split
  all_goals
    rename_i heq
    cases heq
  any_goals cases hd
  simp only [hd, Bool.or_true, if_true]
  exact (takes_natural n hends).map Json.number

/-- Data taken from a value that has been read. -/
theorem reads_then {depth : Nat} {check : Json → Except Reason α} {spelling : List Char} {v : Json}
    {a : α} (hv : Reads (readValue depth) spelling v) (ha : check v = .ok a) :
    Reads (readThen depth check) spelling a := by
  intro blanks rest hblanks hends
  refine (hv blanks rest hblanks hends).bind ?_
  rw [ha]
  exact takes_pure _ _

theorem reads_position {p : Position} (h : p < Position.limit) :
    Reads readPosition (stringText (toString p)).toList p := by
  intro blanks rest hblanks hends
  refine (reads_text "a string" _ blanks rest hblanks hends).bind ?_
  rw [checkPosition, Position.ofChars_toString h]
  exact takes_pure _ _

theorem reads_choice (depth : Nat) {names : List String} (h : names.Nodup)
    (i : Fin names.length) : Reads (readChoice depth names) (stringText (names.get i)).toList i := by
  refine reads_token (head_string _) rfl fun rest _ =>
    (takes_readString (names.get i) rest).bind ?_
  rw [checkName_of_nodup h]
  exact takes_pure _ _

theorem takes_word (c : Char) (letters rest : List Char) :
    (word letters).Takes (c :: (letters ++ rest)) () rest := by
  refine (takes_skipChar _ _).bind ?_
  induction letters with
  | nil => exact takes_pure _ _
  | cons x xs ih =>
    refine (takes_peek _).bind ?_
    rw [List.cons_append, List.head?_cons]
    simp only [if_true]
    exact (takes_skipChar _ _).bind ih

/-- What does not begin like a null is not taken for one. -/
theorem reads_option {r : Reader α} {spelling : List Char} {x : α} (h : Reads r spelling x)
    (hhead : ∃ c, spelling.head? = some c ∧ Cursor.isBlank c = false ∧ c ≠ ']' ∧ c ≠ 'n') :
    Reads (do
      match ← peekToken with
      | some 'n' => word ['u', 'l', 'l']; return none
      | _ => return some (← r)) spelling (some x) := by
  obtain ⟨c, hhead, hblank, _, hnull⟩ := hhead
  refine reads_token hhead hblank fun rest hends => ?_
  split
  · next heq => exact absurd (Option.some.inj heq) hnull
  · exact (h [] rest blank_nil hends).map some

end Leaves

section Members

variable {depth : Nat}

/-- The value of a member is read behind its colon. -/
theorem reads_afterColon {r : Reader α} {v : Json} {x : α} (h : Reads r (spell σ level v) x)
    (f : α → β) :
    Reads (do colon; return f (← r)) (':' :: (σ.gap ++ spell σ level v)) (f x) := by
  intro blanks rest hblanks hends
  have hvalue := h σ.gap rest σ.blank_gap hends
  rw [List.cons_append, List.append_assoc]
  exact (takes_colon hblanks).bind (hvalue.map f)

theorem Fields.readMember_stepsAtField :
    StepsAtField (fun s x v => Reads (s.read depth) (spell σ level v) x)
      fun f => ReadsMember σ level (f.readMember depth) where
  here {name presence schema rest x v} hx others := by
    have hself : (Fields.cons name presence schema rest).readMember depth name (slots none others) =
        (do colon; return slots (some (← schema.read depth)) others) := if_pos rfl
    rw [ReadsMember, hself]
    exact reads_afterColon hx fun x => slots (some x) others
  behind {name presence schema rest key v others next} hkey hnext slot := by
    have hother : (Fields.cons name presence schema rest).readMember depth key
        (slots slot others) = (do return slots slot (← rest.readMember depth key others)) :=
      if_neg hkey
    rw [ReadsMember, hother]
    exact fun blanks rest hblanks hends => (hnext blanks rest hblanks hends).map (slots slot)

/-- The members of a dictionary are put into it one after the other. -/
theorem inTurn_insertAll {r : Reader α} {es : List (String × α)} {ms : List (String × Json)}
    (h : List.Forall₂ (fun e m => m.1 = e.1 ∧ Reads r (spell σ level m.2) e.2) es ms)
    (d : Dictionary α) :
    InTurn (ReadsMember σ level fun key d => do colon; return d.insert key (← r)) ms d
      (d.insertAll es) := by
  induction h generalizing d with
  | nil => exact .nil d
  | @cons e m es ms hem _ ih =>
    obtain ⟨key, v⟩ := m
    obtain ⟨rfl, he⟩ := hem
    exact .cons (reads_afterColon he (d.insert e.1)) (ih (d.insert e.1 e.2))

end Members

/-- The state that the members leave makes the data of a record. -/
theorem takes_record {fields : Fields} {x : fields.Data} {last : fields.Partial} {depth : Nat}
    {ms : List (String × Json)} (rest : List Char)
    (h : InTurn (ReadsMember σ (level + 1) (fields.readMember depth)) ms fields.noneRead last)
    (hlast : fields.complete last = .ok x) :
    (between endOfObject fun c =>
      (members (fields.readMember depth) (c.rest.length + 1) true fields.noneRead).andThen
        (fun state =>
          match fields.complete state with
          | .ok data => pure data
          | .error name => stopUnplaced (.missingField name)) c).Takes
      (spell σ level (.object ms) ++ rest) x rest := by
  refine takes_object fun blanks hblanks => ?_
  refine (takes_allMembers rest h hblanks).bind ?_
  rw [hlast]
  exact takes_pure _ _

mutual

/-- The text that was written is read back, in whatever order its members stand. -/
theorem Schema.reads_reordered : (s : Schema) → s.Sound → (x : s.Data) → s.Fits x →
    (depth : Nat) → s.levels ≤ depth → (level : Nat) → (v : Json) → Reordered (s.encode x) v →
    Reads (s.read depth) (spell σ level v) x
  | .text, _, (_ : String), _, _, _, _, _, .string s => reads_text "a string" s
  | .word32, _, (n : UInt32), _, _, _, _, _, .number _ => by
    intro blanks rest hblanks hends offset
    obtain ⟨offset', h⟩ := reads_word "u32" (word32_lt n) blanks rest hblanks hends offset
    refine ⟨offset', (congrArg (Except.map _) h).trans ?_⟩
    exact congrArg (fun n => Except.ok (n, _)) (UInt32.toUInt32_toUInt64 n)
  | .word64, _, (n : UInt64), _, _, _, _, _, .number _ => reads_word "u64" (word64_lt n)
  | .numeral, _, .word n, _, depth, _, _, _, .number _ =>
    reads_then (reads_value_natural depth n) rfl
  | .numeral, _, .text s, _, depth, _, _, _, .string _ =>
    reads_then (reads_value_string depth s) rfl
  | .position, _, (_ : Position), h, _, _, _, _, .string _ => reads_position h
  | .choice _, hsound, (i : Fin _), _, depth, _, _, _, .string _ => reads_choice depth hsound i
  | .list element, hsound, (xs : List element.Data), h, depth + 1, hdepth, level, _,
    @Reordered.array _ vs hvs => by
    have hle : element.levels ≤ depth := Nat.le_of_succ_le_succ hdepth
    have hxs := (List.forall₂_and_left _ _).2 ⟨h, List.forall₂_map_left_iff.1 hvs⟩
    have helements : List.Forall₂ (ReadsElement σ (level + 1) (element.read depth)) xs vs :=
      hxs.imp fun x v hxv => ⟨element.begins hsound hxv.2,
        Schema.reads_reordered element hsound x hxv.1 depth hle (level + 1) v hxv.2⟩
    exact reads_token (c := '[') rfl rfl fun rest _ => takes_readList helements
  | .option _, _, (none : Option _), _, _, _, _, _, .null =>
    reads_token (c := 'n') rfl rfl fun rest _ => (takes_word 'n' _ rest).bind (takes_pure _ _)
  | .option value, hsound, (some x : Option _), h, depth, hdepth, level, v, hv =>
    reads_option (Schema.reads_reordered value hsound.2 x (h x rfl) depth hdepth level v hv)
      (Schema.exists_head hsound.1 hv)
  | .dictionary value, hsound, (d : Dictionary value.Data), h, depth + 1, hdepth, level, _,
    @Reordered.object _ _ ks hms hperm => by
    have hle : value.levels ≤ depth := Nat.le_of_succ_le_succ hdepth
    obtain ⟨es, hes, hks⟩ := exists_entries hms hperm
    have hfits : ∀ e ∈ es, value.Fits e.2 := fun e he => h e (hes.mem_iff.2 he)
    have hentries : List.Forall₂
        (fun e m => m.1 = e.1 ∧ Reads (value.read depth) (spell σ (level + 1) m.2) e.2) es ks :=
      ((List.forall₂_and_left _ _).2 ⟨hfits, hks⟩).imp fun e m hem =>
        ⟨hem.2.1, Schema.reads_reordered value hsound e.2 hem.1 depth hle (level + 1) m.2 hem.2.2⟩
    have hmembers := inTurn_insertAll hentries .empty
    rw [Dictionary.insertAll_of_perm hes] at hmembers
    exact reads_token (c := '\x7b') rfl rfl fun rest _ =>
      takes_object fun blanks hblanks => takes_allMembers rest hmembers hblanks
  | .record _ fields, hsound, x, h, depth + 1, hdepth, level, _,
    .object hms hperm => by
    have hle : fields.levels ≤ depth := Nat.le_of_succ_le_succ hdepth
    obtain ⟨last, hturn, hlast⟩ := Fields.readMember_stepsAtField.exists_inTurn hsound hms hperm
      (Fields.holds_reads fields hsound x h depth hle (level + 1))
    exact reads_token (c := '\x7b') rfl rfl fun rest _ => takes_record rest hturn hlast

theorem Fields.holds_reads : (f : Fields) → f.Sound → (x : f.Data) → f.Fits x → (depth : Nat) →
    f.levels ≤ depth → (level : Nat) → (key : String) → (v : Json) →
    f.Holds (fun s x v => Reordered (s.encode x) v) x key v →
    f.Holds (fun s x v => Reads (s.read depth) (spell σ level v) x) x key v
  | .nil, _, _, _, _, _, _, _, _, h => h
  | .cons _ _ schema rest, hsound, (x, xs), hfits, depth, hdepth, level, key, v, h => by
    obtain ⟨hle, hles⟩ := Nat.max_le.1 hdepth
    exact h.imp
      (fun h => ⟨h.1, Schema.reads_reordered schema hsound.2.1 x hfits.1 depth hle level v h.2⟩)
      (fun h => ⟨h.1,
        Fields.holds_reads rest hsound.2.2 xs hfits.2 depth hles level key v h.2⟩)

end

theorem readAll_of_takes {r : Reader α} {text : String} {a : α} (h : r.Takes text.toList a []) :
    readAll r text = .ok a := by
  have hnothing : ∀ c ∈ ([] : List Char).head?, Cursor.isBlank c = false := by
    rintro _ ⟨⟩
  have hend : endOfText.Takes [] () [] :=
    (takes_peekToken blank_nil hnothing).bind (takes_pure _ _)
  have hlast : Takes (endOfText >>= fun _ => pure a) [] a [] := hend.bind (takes_pure a [])
  obtain ⟨offset, hwhole⟩ : ∃ offset,
      (r.andThen fun a => endOfText.andThen fun _ => pure a) (.ofText text) =
        .ok (a, ⟨[], offset⟩) :=
    (h.bind (f := fun a => endOfText >>= fun _ => pure a) hlast) 0
  rw [readAll, hwhole]

/-- Data is read back from any text that spells its value. -/
theorem Schema.ofText_of_spelling {s : Schema} (hsound : s.Sound) (hlevels : s.levels ≤ maxDepth)
    {x : s.Data} (h : s.Fits x) {v : Json} (hv : Reordered (s.encode x) v) {text : String}
    (htext : text.toList = spell σ level v) : s.ofText text = .ok x := by
  refine readAll_of_takes ?_
  have hread := Schema.reads_reordered (σ := σ) s hsound x h maxDepth hlevels level v hv [] []
    blank_nil ends_nil
  rwa [List.append_nil, List.nil_append, ← htext] at hread

end StorageUpgrade
