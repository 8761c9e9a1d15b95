import Mathlib.Data.List.Forall2
import StorageUpgrade.Json.Value

/-!
# Values up to the order of members

The members of an object have no order of their own: a writer may list them in any order, and a
reader must not depend on it.
-/
namespace StorageUpgrade.Json

mutual

/-- The same value, but the members of its objects may stand in another order. -/
inductive Reordered : Json → Json → Prop where
  | null : Reordered .null .null
  | bool (b : Bool) : Reordered (.bool b) (.bool b)
  | number (n : Number) : Reordered (.number n) (.number n)
  | string (s : String) : Reordered (.string s) (.string s)
  | array {vs ws : List Json} (h : List.Forall₂ Reordered vs ws) : Reordered (.array vs) (.array ws)
  | object {ms ns ks : List (String × Json)} (h : ReorderedMembers ms ns) (hperm : ns.Perm ks) :
    Reordered (.object ms) (.object ks)

/-- The same members in the same order, up to the order inside of their values. -/
inductive ReorderedMembers : List (String × Json) → List (String × Json) → Prop where
  | nil : ReorderedMembers [] []
  | cons {v w : Json} {ms ns : List (String × Json)} (key : String) (hhead : Reordered v w)
    (htail : ReorderedMembers ms ns) : ReorderedMembers ((key, v) :: ms) ((key, w) :: ns)

end

mutual

theorem Reordered.refl : (v : Json) → Reordered v v
  | .null => .null
  | .bool b => .bool b
  | .number n => .number n
  | .string s => .string s
  | .array vs => .array (reorderedElements_refl vs)
  | .object ms => .object (ReorderedMembers.refl ms) (.refl ms)

theorem reorderedElements_refl : (vs : List Json) → List.Forall₂ Reordered vs vs
  | [] => .nil
  | v :: vs => .cons (Reordered.refl v) (reorderedElements_refl vs)

theorem ReorderedMembers.refl : (ms : List (String × Json)) → ReorderedMembers ms ms
  | [] => .nil
  | (key, v) :: ms => .cons key (Reordered.refl v) (ReorderedMembers.refl ms)

end

theorem ReorderedMembers.forall₂ {ms ns : List (String × Json)} (h : ReorderedMembers ms ns) :
    List.Forall₂ (fun m n => n.1 = m.1 ∧ Reordered m.2 n.2) ms ns := by
  cases h with
  | nil => exact .nil
  | cons key hhead htail => exact .cons ⟨rfl, hhead⟩ htail.forall₂

theorem ReorderedMembers.keys_eq {ms ns : List (String × Json)} (h : ReorderedMembers ms ns) :
    ns.map Prod.fst = ms.map Prod.fst := by
  have hmembers := h.forall₂
  clear h
  induction hmembers with
  | nil => rfl
  | cons hkey _ ih => rw [List.map_cons, List.map_cons, hkey.1, ih]

/-- Members that take a state to another one, each of them by a step of its own. -/
inductive InTurn {σ : Type} (step : String → Json → σ → σ → Prop) :
    List (String × Json) → σ → σ → Prop where
  | nil (state : σ) : InTurn step [] state state
  | cons {key : String} {v : Json} {ms : List (String × Json)} {state next last : σ}
    (hhead : step key v state next) (htail : InTurn step ms next last) :
    InTurn step ((key, v) :: ms) state last

end StorageUpgrade.Json
