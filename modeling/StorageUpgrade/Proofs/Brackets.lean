import StorageUpgrade.Json.Reader
import StorageUpgrade.Proofs.Reading
import StorageUpgrade.Proofs.Reordering

/-!
# What stands between brackets

If each element of an array is found again in its spelling, so is the array, and the same goes for
the members of an object. Neither the blanks between them nor the text behind them matters.
-/
namespace StorageUpgrade.Json

open Reader

variable {α : Type} {σ : Spacing} {level : Nat} {rest blanks : List Char}

theorem goesOn_of_isBlank {c : Char} (h : Cursor.isBlank c = true) : goesOn c = false := by
  simp only [Cursor.isBlank, Bool.or_eq_true, decide_eq_true_eq] at h
  rcases h with ((rfl | rfl) | rfl) | rfl <;> rfl

theorem Ends.append (hblanks : Blank blanks) (h : Ends rest) : Ends (blanks ++ rest) := by
  cases blanks with
  | nil => exact h
  | cons c cs => exact ends_cons (goesOn_of_isBlank (hblanks c (.head _))) (cs ++ rest)

/-- A value is found again in its spelling, behind any blanks and in front of any text in which no
number goes on. -/
def Reads (r : Reader α) (spelling : List Char) (a : α) : Prop :=
  ∀ blanks rest, Blank blanks → Ends rest →
    r.Takes (blanks ++ (spelling ++ rest)) a rest

/-- An element begins here. -/
def Begins (spelling : List Char) : Prop :=
  ∃ c ∈ spelling.head?, Cursor.isBlank c = false ∧ c ≠ ']'

theorem Begins.append {spelling : List Char} (h : Begins spelling) (rest : List Char) :
    Begins (spelling ++ rest) := by
  obtain ⟨c, hc, h⟩ := h
  refine ⟨c, ?_, h⟩
  rw [List.head?_append, hc]
  rfl

theorem Begins.length_pos {spelling : List Char} (h : Begins spelling) : 0 < spelling.length := by
  obtain ⟨c, hc, _⟩ := h
  exact List.length_pos_of_mem (List.mem_of_mem_head? hc)

section Token

variable {k : Option Char → Reader α} {a : α} {c : Char} {cs : List Char}

/-- A look at the next character, with the blanks in front of it taken. -/
theorem takes_token (hblanks : Blank blanks)
    (hc : Cursor.isBlank c = false) (h : (k (some c)).Takes (c :: cs) a rest) :
    Takes (peekToken >>= k) (blanks ++ c :: cs) a rest := by
  refine (takes_peekToken hblanks ?_).bind h
  rintro _ ⟨⟩
  exact hc

theorem takes_token_here (hc : Cursor.isBlank c = false)
    (h : (k (some c)).Takes (c :: cs) a rest) : Takes (peekToken >>= k) (c :: cs) a rest :=
  takes_token blank_nil hc h

end Token

/-- An element is announced by the comma in front of it, if it is not the first. -/
theorem takes_anotherElement (first : Bool) {text : List Char} (h : Begins text) :
    (anotherElement first).Takes (lead σ level first ++ text) true text := by
  obtain ⟨c, hc, hblank, hbracket⟩ := h
  obtain ⟨cs, rfl⟩ := List.head?_eq_some_iff.1 hc
  cases first with
  | true =>
    refine takes_token (σ.blank_line level) hblank ?_
    simp only [if_neg hbracket, if_true]
    exact takes_pure _ _
  | false =>
    refine takes_token_here rfl ?_
    refine (takes_skipChar _ _).bind (takes_token (σ.blank_line level) hblank ?_)
    simp only [if_neg hbracket]
    exact takes_pure _ _

theorem takes_lastElement (first : Bool) (hblanks : Blank blanks) :
    (anotherElement first).Takes (blanks ++ ']' :: rest) false (']' :: rest) :=
  takes_token hblanks rfl (takes_pure _ _)

theorem endOfList_bracket (rest : List Char) (offset : Nat) :
    endOfList ⟨']' :: rest, offset⟩ = (⟨rest, offset + ']'.utf8Size⟩, none) := rfl

theorem endOfObject_bracket (rest : List Char) (offset : Nat) :
    endOfObject ⟨'\x7d' :: rest, offset⟩ = (⟨rest, offset + '\x7d'.utf8Size⟩, none) := rfl

/-- A closing bracket that stands where the body stops is the end. -/
theorem takes_between {ending : Cursor → Cursor × Option Stop} {body : Reader α} {bracket : Char}
    {text : List Char} {a : α} (opening : Char)
    (hending : ∀ offset,
      ending ⟨bracket :: rest, offset⟩ = (⟨rest, offset + bracket.utf8Size⟩, none))
    (h : body.Takes text a (bracket :: rest)) :
    (between ending body).Takes (opening :: text) a rest := by
  intro offset
  obtain ⟨offset', hbody⟩ : ∃ offset',
      body (Cursor.advance ⟨opening :: text, offset⟩) = .ok (a, ⟨bracket :: rest, offset'⟩) :=
    h (offset + opening.utf8Size)
  refine ⟨offset' + bracket.utf8Size, ?_⟩
  rw [between, hbody]
  simp only [hending]

section Elements

variable {element : Reader α} {xs : List α} {vs : List Json}

/-- The spelling of an element begins like one, and the element is found again in it. -/
def ReadsElement (σ : Spacing) (level : Nat) (element : Reader α) (x : α) (v : Json) : Prop :=
  Begins (spell σ level v) ∧ Reads element (spell σ level v) x

theorem length_le_spellElements (h : List.Forall₂ (ReadsElement σ level element) xs vs)
    (first : Bool) : vs.length ≤ (spellElements σ level first vs).length := by
  induction h generalizing first with
  | nil => exact Nat.zero_le _
  | cons hx _ ih =>
    have hpos := hx.1.length_pos
    have hrest := ih false
    simp only [spellElements, List.length_append, List.length_cons]
    omega

/-- No number goes on behind an element. -/
theorem ends_elements (vs : List Json) (h : Ends rest) :
    Ends (spellElements σ level false vs ++ rest) := by
  cases vs with
  | nil => exact h
  | cons v vs => exact ends_cons rfl _

theorem takes_elements (h : List.Forall₂ (ReadsElement σ level element) xs vs)
    (hblanks : Blank blanks) (first : Bool) {n : Nat}
    (hn : vs.length < n) :
    (elements element n first).Takes
      (spellElements σ level first vs ++ (blanks ++ ']' :: rest)) xs (']' :: rest) := by
  induction h generalizing first n with
  | nil =>
    obtain ⟨n, rfl⟩ : ∃ m, n = m + 1 := ⟨n - 1, by omega⟩
    exact (takes_lastElement first hblanks).bind (takes_pure _ _)
  | @cons x v xs vs hx _ ih =>
    obtain ⟨n, rfl⟩ : ∃ m, n = m + 1 := ⟨n - 1, by omega⟩
    have hbracket : Ends (']' :: rest) := ends_cons rfl rest
    have hends : Ends (spellElements σ level false vs ++ (blanks ++ ']' :: rest)) :=
      ends_elements vs (hbracket.append hblanks)
    have hhead := hx.2 [] _ blank_nil hends
    have htail := ih false (Nat.lt_of_succ_lt_succ hn)
    rw [spellElements, List.append_assoc, List.append_assoc]
    exact (takes_anotherElement first (hx.1.append _)).bind (hhead.bind (htail.map (x :: ·)))

/-- An array is found again in its spelling if each of its elements is. -/
theorem takes_readList (h : List.Forall₂ (ReadsElement σ (level + 1) element) xs vs) :
    (readList element).Takes (spell σ level (.array vs) ++ rest) xs rest := by
  have hlength := length_le_spellElements h true
  simp only [spell, List.cons_append, List.append_assoc, List.nil_append]
  refine takes_between '[' (endOfList_bracket rest) fun offset => ?_
  refine takes_elements h (blank_closing σ level vs.isEmpty) true ?_ offset
  rw [List.length_append]
  omega

end Elements

section Members

variable {member : String → α → Reader α} {ms : List (String × Json)} {state last : α}

theorem takes_colon (hblanks : Blank blanks) :
    colon.Takes (blanks ++ ':' :: rest) () rest :=
  takes_token hblanks rfl (takes_skipChar _ _)

/-- A member is announced by the comma in front of it, if it is not the first. -/
theorem takes_anotherMember (first : Bool) (key : String) (text : List Char) :
    (anotherMember first).Takes (lead σ level first ++ ((stringText key).toList ++ text)) true
      ((stringText key).toList ++ text) := by
  rw [toList_stringText]
  cases first with
  | true => exact takes_token (σ.blank_line level) rfl (takes_pure _ _)
  | false =>
    refine takes_token_here rfl ((takes_skipChar _ _).bind ?_)
    exact takes_token (σ.blank_line level) rfl (takes_pure _ _)

theorem takes_lastMember (first : Bool) (hblanks : Blank blanks) :
    (anotherMember first).Takes (blanks ++ '\x7d' :: rest) false ('\x7d' :: rest) :=
  takes_token hblanks rfl (takes_pure _ _)

/-- The member under a key, read from its colon on, takes a state to another one. -/
def ReadsMember (σ : Spacing) (level : Nat) (member : String → α → Reader α) (key : String)
    (v : Json) (state next : α) : Prop :=
  Reads (member key state) (':' :: (σ.gap ++ spell σ level v)) next

theorem ends_members (ms : List (String × Json)) (h : Ends rest) :
    Ends (spellMembers σ level false ms ++ rest) := by
  cases ms with
  | nil => exact h
  | cons m ms => exact ends_cons rfl _

theorem length_le_spellMembers (ms : List (String × Json)) (first : Bool) :
    ms.length ≤ (spellMembers σ level first ms).length := by
  induction ms generalizing first with
  | nil => exact Nat.zero_le _
  | cons m ms ih =>
    have hrest := ih false
    simp only [spellMembers, toList_stringText, List.length_append, List.length_cons]
    omega

theorem takes_members (h : InTurn (ReadsMember σ level member) ms state last)
    (hblanks : Blank blanks) (first : Bool) {n : Nat}
    (hn : ms.length < n) :
    (members member n first state).Takes
      (spellMembers σ level first ms ++ (blanks ++ '\x7d' :: rest)) last ('\x7d' :: rest) := by
  induction h generalizing first n with
  | nil state =>
    obtain ⟨n, rfl⟩ : ∃ m, n = m + 1 := ⟨n - 1, by omega⟩
    exact (takes_lastMember first hblanks).bind (takes_pure _ _)
  | @cons key v ms state next last hhead _ ih =>
    obtain ⟨n, rfl⟩ : ∃ m, n = m + 1 := ⟨n - 1, by omega⟩
    have hbracket : Ends ('\x7d' :: rest) := ends_cons rfl rest
    have hends : Ends (spellMembers σ level false ms ++ (blanks ++ '\x7d' :: rest)) :=
      ends_members ms (hbracket.append hblanks)
    have hhead := hhead [] _ blank_nil hends
    have htail := ih false (Nat.lt_of_succ_lt_succ hn)
    simp only [spellMembers, List.append_assoc]
    exact (takes_anotherMember first key _).bind
      ((takes_readString key _).bind (hhead.bind htail))

/-- An object is taken from its spelling if its members are, and a last step may look at the state
they leave. -/
theorem takes_object {body : Reader α} {a : α}
    (h : ∀ blanks, Blank blanks →
      body.Takes (spellMembers σ (level + 1) true ms ++ (blanks ++ '\x7d' :: rest)) a
        ('\x7d' :: rest)) :
    (between endOfObject body).Takes (spell σ level (.object ms) ++ rest) a rest := by
  have hbody := h _ (blank_closing σ level ms.isEmpty)
  simp only [spell, List.cons_append, List.append_assoc, List.nil_append]
  exact takes_between '\x7b' (endOfObject_bracket rest) hbody

/-- The members of an object are as many as its text has room for. -/
theorem takes_allMembers (rest : List Char) (h : InTurn (ReadsMember σ level member) ms state last)
    (hblanks : Blank blanks) :
    Takes (fun c => members member (c.rest.length + 1) true state c)
      (spellMembers σ level true ms ++ (blanks ++ '\x7d' :: rest)) last ('\x7d' :: rest) := by
  intro offset
  refine takes_members h hblanks true ?_ offset
  have hle : ms.length ≤ (spellMembers σ level true ms).length := length_le_spellMembers ms true
  rw [List.length_append]
  omega

end Members

end StorageUpgrade.Json
