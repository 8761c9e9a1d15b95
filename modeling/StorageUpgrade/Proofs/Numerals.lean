import StorageUpgrade.Proofs.Decimal
import StorageUpgrade.Proofs.Digits
import StorageUpgrade.Proofs.Trimming
import StorageUpgrade.Schema.Check
import StorageUpgrade.Schema.Encode

/-!
# What a numeral denotes

A text denotes a number by the longest run of digits at its front, blanks and a mark of the radix
apart. The value of a numeral is the number of that run, exact up to the limit of positions, and
there is none when the run is empty or its number too large. So every position is found again in its
decimal and in its hexadecimal spelling, among blanks and with anything behind it that does not go
on with the run.
-/
namespace StorageUpgrade

open Text (AllBlank Trimmed)

namespace Numeral

/-- The longest run of digits at the front of a text. -/
structure FrontRun (radix : Nat) (cs run : List Char) : Prop where
  digits : ∀ c ∈ run, Position.IsDigit radix c
  ends : ∃ rest, cs = run ++ rest ∧ ∀ c ∈ rest.head?, ¬ Position.IsDigit radix c

/-- Radix and digits of a text without outer blanks. A zero with a mark behind it selects
hexadecimal and is no digit. -/
inductive Spells : List Char → Nat → List Char → Prop
  | hexadecimal {mark cs run} (hmark : mark = 'x' ∨ mark = 'X') (h : FrontRun 16 cs run) :
      Spells ('0' :: mark :: cs) 16 run
  | decimal {cs run} (hmark : ∀ mark rest, cs = '0' :: mark :: rest → mark ≠ 'x' ∧ mark ≠ 'X')
      (h : FrontRun 10 cs run) : Spells cs 10 run

/-- The text denotes a number by these digits. -/
def Denotes (cs : List Char) (radix : Nat) (run : List Char) : Prop :=
  ∃ core, Trimmed cs core ∧ Spells core radix run

variable {radix : Nat} {cs core run more : List Char} {c : Char} {p : Position}

theorem frontRun_iff {isDigit : Char → Bool}
    (hdigit : ∀ c, isDigit c = true ↔ Position.IsDigit radix c) :
    FrontRun radix cs run ↔ run = cs.takeWhile isDigit := by
  constructor
  · intro h
    obtain ⟨rest, rfl, hrest⟩ := h.ends
    have hnone : rest.takeWhile isDigit = [] := by
      cases rest with
      | nil => rfl
      | cons c rest =>
        have hc : ¬ isDigit c = true := mt (hdigit c).1 (hrest c rfl)
        exact List.takeWhile_cons_of_neg hc
    rw [List.takeWhile_append_of_pos fun c hc => (hdigit c).2 (h.digits c hc), hnone,
      List.append_nil]
  · rintro rfl
    refine ⟨fun c hc => (hdigit c).1 (List.mem_takeWhile_imp hc), cs.dropWhile isDigit,
      List.takeWhile_append_dropWhile.symm, fun c hc => ?_⟩
    have hhead := List.head?_dropWhile_not isDigit cs
    rw [hc] at hhead
    rw [← hdigit, hhead]
    exact Bool.false_ne_true

theorem FrontRun.append (h : FrontRun radix cs run)
    (hmore : ∀ c ∈ more.head?, ¬ Position.IsDigit radix c) : FrontRun radix (cs ++ more) run := by
  obtain ⟨rest, rfl, hrest⟩ := h.ends
  refine ⟨h.digits, rest ++ more, List.append_assoc .., ?_⟩
  cases rest with
  | nil => exact hmore
  | cons c rest => exact hrest

theorem frontRun_self (h : ∀ c ∈ run, Position.IsDigit radix c) : FrontRun radix run run :=
  ⟨h, [], (List.append_nil run).symm, nofun⟩

theorem exists_spells (cs : List Char) : ∃ radix run, Spells cs radix run := by
  by_cases hmark : ∃ mark rest, cs = '0' :: mark :: rest ∧ (mark = 'x' ∨ mark = 'X')
  · obtain ⟨mark, rest, rfl, hmark⟩ := hmark
    exact ⟨16, _, .hexadecimal hmark ((frontRun_iff fun _ => Position.isHexDigit_iff).2 rfl)⟩
  · refine ⟨10, _, .decimal ?_ ((frontRun_iff fun _ => Position.isDigit_ten_iff).2 rfl)⟩
    intro mark rest hcs
    rw [← not_or]
    exact fun h => hmark ⟨mark, rest, hcs, h⟩

/-- What is put behind a text does not matter when it neither goes on with the run nor marks a
radix. -/
theorem Spells.append (h : Spells core radix run) (hcore : core ≠ [])
    (hdigit : ∀ c ∈ more.head?, ¬ Position.IsDigit radix c)
    (hmark : core = ['0'] → ∀ c ∈ more.head?, c ≠ 'x' ∧ c ≠ 'X') :
    Spells (core ++ more) radix run := by
  cases h with
  | hexadecimal hx h => exact .hexadecimal hx (h.append hdigit)
  | decimal hx h =>
    refine .decimal (fun mark rest hcs => ?_) (h.append hdigit)
    rcases core with _ | ⟨zero, _ | ⟨c, core⟩⟩
    · exact absurd rfl hcore
    · obtain ⟨rfl, rfl⟩ := List.cons.inj hcs
      exact hmark rfl mark rfl
    · simp only [List.cons_append, List.cons.injEq] at hcs
      obtain ⟨rfl, rfl, _⟩ := hcs
      exact hx c core rfl

theorem ofRun_eq (radix : Nat) (run : List Char) :
    ofRun radix run = if run ≠ [] ∧ Position.ofDigits radix run < Position.limit then
      some (Position.ofDigits radix run) else none := by
  unfold ofRun
  rw [Position.valueOf_eq_ofDigits]
  cases run with
  | nil => rfl
  | cons c run => simp

theorem ofTrimmed_of_spells (h : Spells core radix run) : ofTrimmed core = ofRun radix run := by
  cases h with
  | hexadecimal hmark h =>
    rw [(frontRun_iff fun _ => Position.isHexDigit_iff).1 h]
    rcases hmark with rfl | rfl <;> rfl
  | decimal hmark h =>
    rw [(frontRun_iff fun _ => Position.isDigit_ten_iff).1 h]
    unfold ofTrimmed
    split
    · next cs => exact absurd rfl (hmark 'x' cs rfl).1
    · next cs => exact absurd rfl (hmark 'X' cs rfl).2
    · rfl

theorem exists_denotes (cs : List Char) : ∃ radix run, Denotes cs radix run := by
  obtain ⟨radix, run, h⟩ := exists_spells (Text.trim cs)
  exact ⟨radix, run, _, Text.trimmed_trim cs, h⟩

/-- The value is the exact number of the digits. -/
theorem value?_of_denotes {s : String} (h : Denotes s.toList radix run) :
    (text s).value? = if run ≠ [] ∧ Position.ofDigits radix run < Position.limit then
      some (Position.ofDigits radix run) else none := by
  obtain ⟨core, hcore, h⟩ := h
  rw [value?, ← hcore.eq_trim, ofTrimmed_of_spells h, ofRun_eq]

theorem Denotes.blanks (h : Denotes cs radix run) {front back : List Char} (hfront : AllBlank front)
    (hback : AllBlank back) : Denotes (front ++ cs ++ back) radix run := by
  obtain ⟨core, hcore, h⟩ := h
  exact ⟨core, hcore.blanks hfront hback, h⟩

theorem not_isDigit_of_isBlank (h : Text.isBlank c = true) : ¬ Position.IsDigit radix c := by
  intro hdigit
  have hrange := Position.isDigit_iff.1 hdigit
  obtain ⟨r, hr, hle⟩ := Text.inRanges_iff.1 h
  simp only [Text.blankRanges, List.mem_cons, List.not_mem_nil, or_false] at hr
  rcases hr with rfl | rfl | rfl | rfl | rfl | rfl | rfl | rfl | rfl | rfl <;> omega

/-- What stands behind the text cannot be taken for a part of its number: it neither goes on with
the digits nor makes a mark of the radix out of a single zero. -/
structure Detached (cs : List Char) (radix : Nat) (suffix : List Char) : Prop where
  /-- A blank text would take the digits behind it for its own. -/
  nonblank : ¬ AllBlank cs
  digit : ∀ c ∈ suffix.head?, ¬ Position.IsDigit radix c
  mark : ∀ front, AllBlank front → cs = front ++ ['0'] → ∀ c ∈ suffix.head?, c ≠ 'x' ∧ c ≠ 'X'

theorem Denotes.append (h : Denotes cs radix run) {suffix : List Char}
    (hsuffix : Detached cs radix suffix) : Denotes (cs ++ suffix) radix run := by
  obtain ⟨core, hcore, h⟩ := h
  have hne : core ≠ [] := by
    rintro rfl
    obtain ⟨front, back, hfront, hback, rfl⟩ := hcore.around
    rw [List.append_nil] at hsuffix
    exact hsuffix.nonblank (hfront.append hback)
  obtain ⟨front, back, more, hfront, hback, hcs, ⟨rest, hmore⟩, htrim⟩ :=
    hcore.exists_append hne suffix
  -- The core goes on with a blank, unless the text ends with it.
  have hhead : ∀ c ∈ more.head?, Text.isBlank c = true ∨ back = [] ∧ c ∈ suffix.head? := by
    intro c hc
    cases more with
    | nil => cases hc
    | cons d more =>
      obtain rfl : d = c := Option.some.inj hc
      cases back with
      | nil => exact .inr ⟨rfl, (congrArg List.head? hmore).symm⟩
      | cons b back =>
        obtain rfl := (List.cons.inj hmore).1
        exact .inl (hback d (.head _))
  refine ⟨core ++ more, htrim, h.append hne (fun c hc => ?_) fun hzero c hc => ?_⟩
  · rcases hhead c hc with hblank | ⟨_, hc⟩
    · exact not_isDigit_of_isBlank hblank
    · exact hsuffix.digit c hc
  · rcases hhead c hc with hblank | ⟨rfl, hc⟩
    · constructor <;> rintro rfl <;> cases hblank
    · subst hzero
      rw [List.append_nil] at hcs
      exact hsuffix.mark front hfront hcs c hc

/-- The value of a text is that of the digits in it, and what stands around them is passed over. -/
structure ReadExactly (s : String) : Prop where
  some_iff : ∀ p, (text s).value? = some p ↔ ∃ radix run, Denotes s.toList radix run ∧ run ≠ [] ∧
    Position.ofDigits radix run = p ∧ p < Position.limit
  none_iff : (text s).value? = none ↔ ∃ radix run, Denotes s.toList radix run ∧
    (run = [] ∨ Position.limit ≤ Position.ofDigits radix run)
  blanks : ∀ front back : String, AllBlank front.toList → AllBlank back.toList →
    (text (front ++ s ++ back)).value? = (text s).value?
  suffix : ∀ radix run (suffix : String), Denotes s.toList radix run →
    Detached s.toList radix suffix.toList → (text (s ++ suffix)).value? = (text s).value?

theorem readExactly (s : String) : ReadExactly s := by
  obtain ⟨radix, run, hdenotes⟩ := exists_denotes s.toList
  constructor
  · intro p
    constructor
    · intro h
      rw [value?_of_denotes hdenotes] at h
      split_ifs at h with hrun
      obtain rfl := Option.some.inj h
      exact ⟨radix, run, hdenotes, hrun.1, rfl, hrun.2⟩
    · rintro ⟨radix, run, hdenotes, hne, rfl, hlt⟩
      rw [value?_of_denotes hdenotes, if_pos ⟨hne, hlt⟩]
  · constructor
    · intro h
      rw [value?_of_denotes hdenotes] at h
      split_ifs at h with hrun
      refine ⟨radix, run, hdenotes, ?_⟩
      rwa [not_and_or, not_not, not_lt] at hrun
    · rintro ⟨radix, run, hdenotes, hrun⟩
      rw [value?_of_denotes hdenotes, if_neg]
      rwa [not_and_or, not_not, not_lt]
  · intro front back hfront hback
    have hblanks : Denotes (front ++ s ++ back).toList radix run := by
      rw [String.toList_append, String.toList_append]
      exact hdenotes.blanks hfront hback
    rw [value?_of_denotes hblanks, value?_of_denotes hdenotes]
  · intro radix run suffix hdenotes hsuffix
    have happend : Denotes (s ++ suffix).toList radix run := by
      rw [String.toList_append]
      exact hdenotes.append hsuffix
    rw [value?_of_denotes happend, value?_of_denotes hdenotes]

theorem isBlank_eq_false_of_isDigit (h : Position.IsDigit radix c) : Text.isBlank c = false := by
  by_contra hblank
  exact not_isDigit_of_isBlank ((Bool.not_eq_false _).mp hblank) h

/-- The digits of a number denote it. None of them is a mark of another radix. -/
theorem denotes_decimal (p : Nat) : Denotes (Nat.toDigits 10 p) 10 (Nat.toDigits 10 p) := by
  have hdigits : ∀ c ∈ Nat.toDigits 10 p, Position.IsDigit 10 c := fun c hc =>
    Position.isDigit_of_mem_toDigits (by decide) (by decide) hc
  refine ⟨_, Text.trimmed_self fun c hc => isBlank_eq_false_of_isDigit (hdigits c hc),
    .decimal (fun mark rest hcs => ?_) (frontRun_self hdigits)⟩
  have hmark : Position.IsDigit 10 mark := by
    apply hdigits
    rw [hcs]
    exact .tail _ (.head _)
  constructor
  · rintro rfl
    exact absurd hmark (by decide)
  · rintro rfl
    exact absurd hmark (by decide)

theorem isBlank_hexadecimal {mark : Char} {digits : List Char} (hmark : mark = 'x' ∨ mark = 'X')
    (hdigits : ∀ c ∈ digits, Position.IsDigit 16 c) :
    ∀ c ∈ '0' :: mark :: digits, Text.isBlank c = false := by
  intro c hc
  rcases List.mem_cons.1 hc with rfl | hc
  · rfl
  rcases List.mem_cons.1 hc with rfl | hc
  · rcases hmark with rfl | rfl <;> rfl
  · exact isBlank_eq_false_of_isDigit (hdigits c hc)

theorem denotes_hexadecimal {mark : Char} {digits : List Char} (hmark : mark = 'x' ∨ mark = 'X')
    (hdigits : ∀ c ∈ digits, Position.IsDigit 16 c) :
    Denotes ('0' :: mark :: digits) 16 digits :=
  ⟨_, Text.trimmed_self (isBlank_hexadecimal hmark hdigits),
    .hexadecimal hmark (frontRun_self hdigits)⟩

/-- In a text without blanks only a single zero can be taken for a mark of the radix. -/
theorem detached_of_not_blank {suffix : List Char} (hne : cs ≠ [])
    (hcs : ∀ c ∈ cs, Text.isBlank c = false)
    (hdigit : ∀ c ∈ suffix.head?, ¬ Position.IsDigit radix c)
    (hmark : cs = ['0'] → ∀ c ∈ suffix.head?, c ≠ 'x' ∧ c ≠ 'X') :
    Detached cs radix suffix := by
  refine ⟨?_, hdigit, ?_⟩
  · intro hblank
    obtain ⟨c, hc⟩ := List.exists_mem_of_ne_nil cs hne
    exact absurd (hblank c hc) (by rw [hcs c hc]; decide)
  · intro front hfront hzero
    cases front with
    | nil => exact hmark hzero
    | cons c front =>
      have hc : Text.isBlank c = false := hcs c (hzero ▸ .head _)
      exact absurd (hfront c (.head _)) (by rw [hc]; decide)

/-- A number below the limit is read from any text that denotes it, blanks in front and something
detached behind it apart. -/
theorem value?_around {spelling : String} (hdenotes : Denotes spelling.toList radix run)
    (hrun : run ≠ []) (hp : Position.ofDigits radix run < Position.limit) {front suffix : String}
    (hfront : AllBlank front.toList) (hsuffix : Detached spelling.toList radix suffix.toList) :
    (text (front ++ spelling ++ suffix)).value? = some (Position.ofDigits radix run) := by
  have haround : Denotes (front ++ spelling ++ suffix).toList radix run := by
    have h := (hdenotes.append hsuffix).blanks hfront (List.forall_mem_nil _)
    rwa [List.append_nil, ← List.append_assoc, ← String.toList_append, ← String.toList_append] at h
  rw [value?_of_denotes haround, if_pos ⟨hrun, hp⟩]

end Numeral

namespace Position

/-- The position is found again in its spellings, whatever blanks stand in front of them and
whatever stands behind without going on with the digits. -/
structure FoundAgain (p : Position) : Prop where
  decimal : ∀ front suffix : String, AllBlank front.toList →
    (∀ c ∈ suffix.toList.head?, ¬ IsDigit 10 c ∧ (p = 0 → c ≠ 'x' ∧ c ≠ 'X')) →
    (Numeral.text (front ++ toString p ++ suffix)).value? = some p
  /-- The letters among the digits may be of either case. -/
  hexadecimal : ∀ (front suffix : String) mark digits, AllBlank front.toList →
    (∀ c ∈ suffix.toList.head?, ¬ IsDigit 16 c) → (mark = 'x' ∨ mark = 'X') →
    digits.map Char.toLower = Nat.toDigits 16 p →
    (Numeral.text (front ++ String.ofList ('0' :: mark :: digits) ++ suffix)).value? = some p
  written : checkPosition (Schema.position.encode p) = .ok p

theorem value?_decimal {p : Position} (hp : p < limit) {front suffix : String}
    (hfront : AllBlank front.toList)
    (hsuffix : ∀ c ∈ suffix.toList.head?, ¬ IsDigit 10 c ∧ (p = 0 → c ≠ 'x' ∧ c ≠ 'X')) :
    (Numeral.text (front ++ toString p ++ suffix)).value? = some p := by
  have hnumber : ofDigits 10 (Nat.toDigits 10 p) = p := ofDigits_toDigits (by decide) (by decide) p
  have hdenotes : Numeral.Denotes (toString p).toList 10 (Nat.toDigits 10 p) := by
    rw [toList_toString]
    exact Numeral.denotes_decimal p
  have hdetached : Numeral.Detached (toString p).toList 10 suffix.toList := by
    rw [toList_toString]
    apply Numeral.detached_of_not_blank Nat.toDigits_ne_nil
    · intro c hc
      exact Numeral.isBlank_eq_false_of_isDigit (isDigit_of_mem_toDigits (by decide) (by decide) hc)
    · intro c hc
      exact (hsuffix c hc).1
    · intro hzero c hc
      apply (hsuffix c hc).2
      rw [← hnumber, hzero]
      rfl
  have h := Numeral.value?_around hdenotes Nat.toDigits_ne_nil (hnumber.symm ▸ hp) hfront hdetached
  rwa [hnumber] at h

theorem value?_hexadecimal {p : Position} (hp : p < limit) {front suffix : String} {mark : Char}
    {digits : List Char} (hfront : AllBlank front.toList)
    (hsuffix : ∀ c ∈ suffix.toList.head?, ¬ IsDigit 16 c) (hmark : mark = 'x' ∨ mark = 'X')
    (hdigits : digits.map Char.toLower = Nat.toDigits 16 p) :
    (Numeral.text (front ++ String.ofList ('0' :: mark :: digits) ++ suffix)).value? = some p := by
  have hnumber : ofDigits 16 digits = p := by
    rw [← ofDigits_map_toLower, hdigits, ofDigits_toDigits (by decide) (by decide)]
  have hall : ∀ c ∈ digits, IsDigit 16 c := by
    intro c hc
    have hlower : c.toLower ∈ Nat.toDigits 16 p := hdigits ▸ List.mem_map_of_mem hc
    exact isDigit_toLower.1 (isDigit_of_mem_toDigits (by decide) (by decide) hlower)
  have hne : digits ≠ [] := by
    rintro rfl
    exact Nat.toDigits_ne_nil hdigits.symm
  have hdenotes := Numeral.denotes_hexadecimal hmark hall
  have hdetached : Numeral.Detached ('0' :: mark :: digits) 16 suffix.toList :=
    Numeral.detached_of_not_blank nofun (Numeral.isBlank_hexadecimal hmark hall) hsuffix nofun
  rw [← String.toList_ofList (l := '0' :: mark :: digits)] at hdenotes hdetached
  have h := Numeral.value?_around hdenotes hne (hnumber.symm ▸ hp) hfront hdetached
  rwa [hnumber] at h

theorem foundAgain {p : Position} (hp : p < limit) : FoundAgain p where
  decimal _ _ hfront hsuffix := value?_decimal hp hfront hsuffix
  hexadecimal _ _ _ _ hfront hsuffix hmark hdigits :=
    value?_hexadecimal hp hfront hsuffix hmark hdigits
  written := congrArg (Except.mapError Json.Reason.badPosition) (ofChars_toString hp)

end Position

/-- Reading is exact over all texts, and every position is found again in its spellings. -/
theorem Numeral.reading_exact :
    (∀ s, ReadExactly s) ∧ ∀ p : Position, p < Position.limit → p.FoundAgain :=
  ⟨readExactly, fun _ => Position.foundAgain⟩

/-- The letters of 255 in either case, with a tabulator in front and a letter behind them that is no
digit. -/
theorem Numeral.reading_exact_letters :
    255 < Position.limit ∧
      (text "\t0XfFg").value? = some 255 ∧ (text "255_").value? = some 255 := by
  have hlt : 255 < Position.limit := by decide +kernel
  have hfound : Position.FoundAgain 255 := reading_exact.2 255 hlt
  refine ⟨hlt, ?_, ?_⟩
  · have hletter : ∀ c ∈ "g".toList.head?, ¬ Position.IsDigit 16 c := by
      intro c hc
      obtain rfl : 'g' = c := Option.some.inj hc
      decide
    exact hfound.hexadecimal "\t" "g" 'X' ['f', 'F'] (by decide) hletter (.inr rfl) (by decide)
  · apply hfound.decimal "" "_" nofun
    intro c hc
    obtain rfl : '_' = c := Option.some.inj hc
    exact ⟨by decide, nofun⟩

end StorageUpgrade
