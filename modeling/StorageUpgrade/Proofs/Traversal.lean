import Mathlib.Data.List.Perm.Basic

/-!
# Traversals that can fail

A list of computations succeeds when each of them does, and then the results stand in the order of
their inputs. Otherwise it fails like the first computation that does.
-/
namespace StorageUpgrade

variable {α β γ ε : Type} {f : α → Except ε β} {xs : List α}

/-- A computation in two steps succeeds when both steps do. -/
theorem bind_eq_ok_iff {x : Except ε α} {g : α → Except ε β} {b : β} :
    (x >>= g) = .ok b ↔ ∃ a, x = .ok a ∧ g a = .ok b := by
  cases x with
  | error e =>
    constructor
    · intro h
      cases h
    · rintro ⟨a, h, _⟩
      cases h
  | ok a =>
    constructor
    · exact fun h => ⟨a, rfl, h⟩
    · rintro ⟨_, ⟨⟩, h⟩
      exact h

/-- A computation in two steps fails when one of the steps does. -/
theorem bind_eq_error_iff {x : Except ε α} {g : α → Except ε β} {e : ε} :
    (x >>= g) = .error e ↔ x = .error e ∨ ∃ a, x = .ok a ∧ g a = .error e := by
  cases x with
  | error e' =>
    constructor
    · intro h
      exact .inl (Except.error.inj h ▸ rfl)
    · rintro (h | ⟨a, h, _⟩)
      · exact Except.error.inj h ▸ rfl
      · cases h
  | ok a =>
    constructor
    · exact fun h => .inr ⟨a, rfl, h⟩
    · rintro (h | ⟨_, ⟨⟩, h⟩)
      · cases h
      · exact h

theorem mapM_eq_ok_iff {ys : List β} :
    xs.mapM f = .ok ys ↔ List.Forall₂ (fun x y => f x = .ok y) xs ys := by
  induction xs generalizing ys with
  | nil =>
    rw [List.mapM_nil, List.forall₂_nil_left_iff]
    exact ⟨fun h => (Except.ok.inj h).symm, fun h => h ▸ rfl⟩
  | cons x xs ih =>
    rw [List.mapM_cons, List.forall₂_cons_left_iff, bind_eq_ok_iff]
    constructor
    · rintro ⟨y, hy, h⟩
      obtain ⟨zs, hzs, h⟩ := bind_eq_ok_iff.1 h
      exact ⟨y, zs, hy, ih.1 hzs, (Except.ok.inj h).symm⟩
    · rintro ⟨y, zs, hy, hzs, rfl⟩
      exact ⟨y, hy, bind_eq_ok_iff.2 ⟨zs, ih.2 hzs, rfl⟩⟩

/-- A traversal may go over other inputs, as long as each of them has the same result. -/
theorem mapM_eq_ok_of_forall₂ {R : α → γ → Prop} {g : γ → Except ε β} {zs : List γ} {ys : List β}
    (h : List.Forall₂ R xs zs) (hR : ∀ x z y, R x z → f x = .ok y → g z = .ok y)
    (hxs : xs.mapM f = .ok ys) : zs.mapM g = .ok ys := by
  have hall := mapM_eq_ok_iff.1 hxs
  clear hxs
  rw [mapM_eq_ok_iff]
  induction h generalizing ys with
  | nil =>
    cases hall
    exact .nil
  | cons hxz _ ih =>
    cases hall with
    | cons hy hys => exact .cons (hR _ _ _ hxz hy) (ih hys)

theorem exists_mapM_ok (h : ∀ x ∈ xs, ∃ y, f x = .ok y) : ∃ ys, xs.mapM f = .ok ys := by
  induction xs with
  | nil => exact ⟨[], rfl⟩
  | cons x xs ih =>
    obtain ⟨⟨y, hy⟩, hxs⟩ := List.forall_mem_cons.1 h
    obtain ⟨ys, hys⟩ := ih hxs
    exact ⟨y :: ys, mapM_eq_ok_iff.2 (.cons hy (mapM_eq_ok_iff.1 hys))⟩

/-- The results are the images of the inputs. -/
theorem mem_of_mapM_ok {ys : List β} (h : xs.mapM f = .ok ys) (y : β) :
    y ∈ ys ↔ ∃ x ∈ xs, f x = .ok y := by
  have hall := mapM_eq_ok_iff.1 h
  clear h
  induction hall with
  | nil => simp
  | @cons x y' xs ys hx _ ih =>
    have hxy : f x = .ok y ↔ y = y' :=
      ⟨fun h => Except.ok.inj (h.symm.trans hx), fun h => h ▸ hx⟩
    simp [ih, hxy]

/-- Every input of a successful traversal has a result. -/
theorem exists_ok_of_mem {x : α} {ys : List β} (h : xs.mapM f = .ok ys) (hx : x ∈ xs) :
    ∃ y, f x = .ok y := by
  have hall := mapM_eq_ok_iff.1 h
  clear h
  induction hall with
  | nil => cases hx
  | cons hy _ ih =>
    rcases List.mem_cons.1 hx with rfl | hx
    · exact ⟨_, hy⟩
    · exact ih hx

/-- What can be told of each result from its input can be told of the whole list. -/
theorem map_eq_of_mapM_ok {ys : List β} {g : β → γ} {k : α → γ} (h : xs.mapM f = .ok ys)
    (hgk : ∀ x ∈ xs, ∀ y, f x = .ok y → g y = k x) : ys.map g = xs.map k := by
  have hall := mapM_eq_ok_iff.1 h
  clear h
  induction hall with
  | nil => rfl
  | @cons x y xs ys hxy _ ih =>
    rw [List.map_cons, List.map_cons, hgk x (.head _) y hxy, ih fun x hx => hgk x (.tail _ hx)]

/-- In another order the inputs of a successful traversal have the same results, in that order. -/
theorem exists_mapM_ok_of_perm {zs : List α} {ys : List β} (hperm : xs.Perm zs)
    (h : xs.mapM f = .ok ys) : ∃ ws, zs.mapM f = .ok ws ∧ ys.Perm ws := by
  obtain ⟨ws, hws, hperm⟩ := List.perm_comp_forall₂ hperm.symm (mapM_eq_ok_iff.1 h)
  exact ⟨ws, mapM_eq_ok_iff.2 hws, hperm.symm⟩

section Option

variable {g : α → Option β} {ys : List β}

/-- All computations have a result when a list of results is theirs. -/
theorem mapM_eq_some_iff : xs.mapM g = some ys ↔ xs.map g = ys.map some := by
  induction xs generalizing ys with
  | nil => cases ys <;> simp
  | cons x xs ih =>
    rw [List.mapM_cons, List.map_cons]
    constructor
    · intro h
      obtain ⟨y, hy, h⟩ := Option.bind_eq_some_iff.1 h
      obtain ⟨zs, hzs, h⟩ := Option.bind_eq_some_iff.1 h
      cases h
      rw [hy, ih.1 hzs]
      rfl
    · intro h
      cases ys with
      | nil => cases h
      | cons y ys =>
        obtain ⟨hy, hys⟩ := List.cons.inj h
        rw [hy, ih.2 hys]
        rfl

theorem mapM_eq_none_iff : xs.mapM g = none ↔ ∃ x ∈ xs, g x = none := by
  induction xs with
  | nil => simp
  | cons x xs ih =>
    rw [List.mapM_cons, List.exists_mem_cons_iff, ← ih]
    cases g x with
    | none => exact iff_of_true rfl (.inl rfl)
    | some y => cases xs.mapM g <;> simp

end Option

/-- The first element of a list about which there is something to tell, and what it is. -/
inductive First (P : α → ε → Prop) : List α → ε → Prop
  | head {x xs e} (h : P x e) : First P (x :: xs) e
  | tail {x xs e} (hx : ∀ e, ¬ P x e) (h : First P xs e) : First P (x :: xs) e

theorem not_first_nil {P : α → ε → Prop} {e : ε} : ¬ First P [] e := nofun

theorem first_cons_iff {P : α → ε → Prop} {x : α} {e : ε} :
    First P (x :: xs) e ↔ P x e ∨ (∀ e, ¬ P x e) ∧ First P xs e := by
  constructor
  · rintro (h | ⟨hx, h⟩)
    · exact .inl h
    · exact .inr ⟨hx, h⟩
  · rintro (h | ⟨hx, h⟩)
    · exact .head h
    · exact .tail hx h

/-- A computation whose first step fails as `P x` tells, and whose second one as the rest of the
list does. -/
theorem bind_eq_error_iff_first {P : γ → ε → Prop} {x : γ} {xs : List γ} {y : Except ε α}
    {g : α → Except ε β} {e : ε} (hy : ∀ e, y = .error e ↔ P x e)
    (hg : ∀ a, y = .ok a → (g a = .error e ↔ First P xs e)) :
    (y >>= g) = .error e ↔ First P (x :: xs) e := by
  rw [bind_eq_error_iff, first_cons_iff, hy]
  refine or_congr_right ?_
  cases y with
  | error e' =>
    have hx : P x e' := (hy e').1 rfl
    exact iff_of_false (fun ⟨_, h, _⟩ => nomatch h) fun h => h.1 e' hx
  | ok a =>
    have hx : ∀ e, ¬ P x e := fun e h => nomatch (hy e).2 h
    rw [← hg a rfl]
    constructor
    · rintro ⟨_, ⟨⟩, h⟩
      exact ⟨hx, h⟩
    · exact fun h => ⟨a, rfl, h.2⟩

/-- A traversal fails like the first of its computations that fails. -/
theorem mapM_eq_error_iff {e : ε} :
    xs.mapM f = .error e ↔ First (fun x e => f x = .error e) xs e := by
  induction xs with
  | nil =>
    rw [List.mapM_nil]
    exact iff_of_false nofun not_first_nil
  | cons x xs ih =>
    rw [List.mapM_cons]
    refine bind_eq_error_iff_first (fun _ => Iff.rfl) fun y _ => ?_
    rw [bind_eq_error_iff, ih, or_iff_left]
    rintro ⟨_, _, h⟩
    cases h

end StorageUpgrade
