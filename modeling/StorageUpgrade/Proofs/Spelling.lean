import StorageUpgrade.Json.Cursor
import StorageUpgrade.Json.Writer
import StorageUpgrade.Proofs.Pieces

/-!
# JSON texts, character by character

The two texts of a value differ in nothing but the blanks between their parts. A spacing says which
blanks those are, and a value has one spelling for each spacing.
-/
namespace StorageUpgrade

namespace Json

/-- Nothing but blanks. -/
def Blank (cs : List Char) : Prop := ∀ c ∈ cs, Cursor.isBlank c = true

theorem blank_nil : Blank [] := List.forall_mem_nil _

/-- Blanks in front of a part at a level, and in front of the value of a member. -/
structure Spacing where
  line : Nat → List Char
  gap : List Char
  blank_line : ∀ level, Blank (line level)
  blank_gap : Blank gap

namespace Spacing

def none : Spacing where
  line _ := []
  gap := []
  blank_line _ := blank_nil
  blank_gap := blank_nil

/-- A line for every part, with two spaces for each level. -/
def lines : Spacing where
  line level := '\n' :: List.replicate (2 * level) ' '
  gap := [' ']
  blank_line level := by
    intro c h
    rcases List.mem_cons.1 h with rfl | h
    · rfl
    · rw [List.eq_of_mem_replicate h]
      rfl
  blank_gap := by
    intro c h
    rw [List.mem_singleton.1 h]
    rfl

end Spacing

variable (σ : Spacing)

/-- Blanks behind the last of some parts. -/
def closing (level : Nat) (isEmpty : Bool) : List Char := if isEmpty then [] else σ.line level

theorem blank_closing (level : Nat) (isEmpty : Bool) : Blank (closing σ level isEmpty) := by
  cases isEmpty with
  | true => exact blank_nil
  | false => exact σ.blank_line level

/-- What stands in front of a part: a comma, unless it is the first, and the blanks. -/
def lead (level : Nat) (first : Bool) : List Char :=
  if first then σ.line level else ',' :: σ.line level

mutual

/-- The characters of a value at a level. -/
def spell (level : Nat) : Json → List Char
  | null => ['n', 'u', 'l', 'l']
  | bool b => (boolText b).toList
  | number n => n.text.toList
  | string s => (stringText s).toList
  | array vs => '[' :: (spellElements (level + 1) true vs ++ (closing σ level vs.isEmpty ++ [']']))
  | object ms =>
    '\x7b' :: (spellMembers (level + 1) true ms ++ (closing σ level ms.isEmpty ++ ['\x7d']))

def spellElements (level : Nat) (first : Bool) : List Json → List Char
  | [] => []
  | v :: vs => lead σ level first ++ (spell level v ++ spellElements level false vs)

def spellMembers (level : Nat) (first : Bool) : List (String × Json) → List Char
  | [] => []
  | (key, v) :: ms =>
    lead σ level first ++ ((stringText key).toList ++
      (':' :: (σ.gap ++ spell level v) ++ spellMembers level false ms))

end

mutual

/-- The text on one line has no blanks. -/
theorem toList_compact (level : Nat) : (v : Json) → (compact v).toList = spell .none level v
  | null => rfl
  | bool _ => rfl
  | number _ => rfl
  | string _ => rfl
  | array [] => rfl
  | array (v :: vs) => by
    have hv := toList_compact (level + 1) v
    have hvs := toList_compactElements (level + 1) vs
    rw [compact, compactElements, String.toList_append, String.toList_append,
      Text.toList_join_cons, hv, hvs, spell, spellElements]
    simp [lead, closing, Spacing.none]
  | object [] => rfl
  | object ((key, v) :: ms) => by
    have hv := toList_compact (level + 1) v
    have hms := toList_compactMembers (level + 1) ms
    rw [compact, compactMembers, String.toList_append, String.toList_append,
      Text.toList_join_cons, String.toList_append, hv, hms, spell, spellMembers]
    simp [lead, closing, Spacing.none]

theorem toList_compactElements (level : Nat) : (vs : List Json) →
    ((compactElements vs).flatMap fun t => ",".toList ++ t.toList) =
      spellElements .none level false vs
  | [] => rfl
  | v :: vs => by
    have hv := toList_compact level v
    have hvs := toList_compactElements level vs
    rw [compactElements, List.flatMap_cons, hv, hvs, spellElements]
    simp [lead, Spacing.none]

theorem toList_compactMembers (level : Nat) : (ms : List (String × Json)) →
    ((compactMembers ms).flatMap fun t => ",".toList ++ t.toList) =
      spellMembers .none level false ms
  | [] => rfl
  | (key, v) :: ms => by
    have hv := toList_compact level v
    have hms := toList_compactMembers level ms
    rw [compactMembers, List.flatMap_cons, String.toList_append, hv, hms, spellMembers]
    simp [lead, Spacing.none]

end

theorem toList_bracketed (opening ending part : String) (level : Nat) (parts : List String) :
    (bracketed opening ending level (part :: parts)).toList =
      opening.toList ++ (Spacing.lines.line (level + 1) ++ (part.toList ++
        ((parts.flatMap fun t => (",\n" ++ indent (level + 1)).toList ++ t.toList) ++
          (Spacing.lines.line level ++ ending.toList)))) := by
  simp only [bracketed, String.toList_append, Text.toList_join_cons]
  simp [Spacing.lines, indent]

mutual

/-- The text over several lines has two spaces for each level. -/
theorem toList_prettyAt (level : Nat) : (v : Json) →
    (prettyAt level v).toList = spell .lines level v
  | null => by
    rw [prettyAt, spell]
    rfl
  | bool _ => by rw [prettyAt, spell]
  | number _ => by rw [prettyAt, spell]
  | string _ => by rw [prettyAt, spell]
  | array [] => by
    rw [prettyAt, prettyElements, bracketed, String.toList_append]
    rfl
  | array (v :: vs) => by
    have hv := toList_prettyAt (level + 1) v
    have hvs := toList_prettyElements (level + 1) vs
    rw [prettyAt, prettyElements, toList_bracketed, hv, hvs, spell, spellElements]
    simp [lead, closing]
  | object [] => by
    rw [prettyAt, prettyMembers, bracketed, String.toList_append]
    rfl
  | object ((key, v) :: ms) => by
    have hv := toList_prettyAt (level + 1) v
    have hms := toList_prettyMembers (level + 1) ms
    rw [prettyAt, prettyMembers, toList_bracketed, String.toList_append, hv, hms, spell,
      spellMembers]
    simp [lead, closing, Spacing.lines]

theorem toList_prettyElements (level : Nat) : (vs : List Json) →
    ((prettyElements level vs).flatMap fun t => (",\n" ++ indent level).toList ++ t.toList) =
      spellElements .lines level false vs
  | [] => rfl
  | v :: vs => by
    have hv := toList_prettyAt level v
    have hvs := toList_prettyElements level vs
    rw [prettyElements, List.flatMap_cons, hv, hvs, spellElements]
    simp [lead, Spacing.lines, indent]

theorem toList_prettyMembers (level : Nat) : (ms : List (String × Json)) →
    ((prettyMembers level ms).flatMap fun t => (",\n" ++ indent level).toList ++ t.toList) =
      spellMembers .lines level false ms
  | [] => rfl
  | (key, v) :: ms => by
    have hv := toList_prettyAt level v
    have hms := toList_prettyMembers level ms
    rw [prettyMembers, List.flatMap_cons, hms, spellMembers]
    simp [hv, lead, Spacing.lines, indent]

end

theorem toList_pretty (v : Json) : (pretty v).toList = spell .lines 0 v := toList_prettyAt 0 v

end Json

end StorageUpgrade
