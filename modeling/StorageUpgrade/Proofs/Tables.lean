import Mathlib.Algebra.GroupWithZero.Nat
import Mathlib.Data.List.Forall2
import StorageUpgrade.Proofs.Pieces
import StorageUpgrade.Report.Table

/-!
# Tables, line by line

A table shows its rows in their order. Each row is a block of lines, as many as its tallest cell
has, and each of these lines has a piece for every column: a line of the cell, with blanks up to the
width of the column. So all lines of a table are equally wide.
-/
namespace StorageUpgrade.Report

variable {text : String} {side : Side} {width n : Nat}

theorem foldl_max_le_iff {xs : List Nat} {a : Nat} :
    xs.foldl Nat.max a ≤ n ↔ a ≤ n ∧ ∀ x ∈ xs, x ≤ n := by
  induction xs generalizing a with
  | nil => simp
  | cons x xs ih =>
    rw [List.foldl_cons, ih, List.forall_mem_cons, ← and_assoc]
    exact and_congr_left fun _ => Nat.max_le

theorem cellWidth_le_iff :
    cellWidth text ≤ n ↔ ∀ line ∈ cellLines text, Text.width line ≤ n := by
  simp [cellWidth, foldl_max_le_iff]

theorem width_replicate (n : Nat) (c : Char) :
    Text.width (List.replicate n c) = n * Text.charWidth c := by
  induction n with
  | zero => simp
  | succ n ih => rw [List.replicate_succ, Text.width_cons, ih, Nat.succ_mul, Nat.add_comm]

@[simp] theorem width_spaces (n : Nat) : Text.width (spaces n) = n := by
  rw [spaces, width_replicate]
  exact Nat.mul_one n

/-- A line of a cell, empty below the last one. -/
def cellLineAt (text : String) (index : Nat) : List Char := (cellLines text)[index]?.getD []

theorem width_cellLineAt_le (text : String) (index : Nat) :
    Text.width (cellLineAt text index) ≤ cellWidth text := by
  unfold cellLineAt
  cases h : (cellLines text)[index]? with
  | none => exact Nat.zero_le _
  | some line => exact cellWidth_le_iff.1 (Nat.le_refl _) line (List.mem_of_getElem? h)

theorem feed_not_mem_cellLineAt (text : String) (index : Nat) : '\n' ∉ cellLineAt text index := by
  unfold cellLineAt
  cases h : (cellLines text)[index]? with
  | none => exact List.not_mem_nil
  | some line => exact Text.not_mem_of_mem_splitOn (List.mem_of_getElem? h)

/-- A column shows a line of a cell, with blanks up to its width. The lines of a cell keep their
left edge in common. It is that of the column, or else the widest line reaches the right edge. -/
structure ShowsLine (side : Side) (width : Nat) (text : String) (index : Nat) (shown : List Char) :
    Prop where
  width_eq : Text.width shown = width
  left : side = .left → ∃ n, shown = cellLineAt text index ++ spaces n
  right : side = .right →
    ∃ n, shown = spaces (width - cellWidth text) ++ (cellLineAt text index ++ spaces n)

theorem showsLine_cellLine (side : Side) (h : cellWidth text ≤ width) (index : Nat) :
    ShowsLine side width text index (cellLine side width text index) := by
  have hline := width_cellLineAt_le text index
  cases side with
  | left =>
    have hshown : cellLine .left width text index = cellLineAt text index ++ spaces
        (cellWidth text - Text.width (cellLineAt text index) + (width - cellWidth text)) := by
      rw [spaces, List.replicate_add, ← List.append_assoc]
      rfl
    refine ⟨?_, fun _ => ⟨_, hshown⟩, nofun⟩
    rw [hshown, Text.width_append, width_spaces]
    omega
  | right =>
    have hshown : cellLine .right width text index = spaces (width - cellWidth text) ++
        (cellLineAt text index ++
          spaces (cellWidth text - Text.width (cellLineAt text index))) := rfl
    refine ⟨?_, nofun, fun _ => ⟨_, hshown⟩⟩
    rw [hshown, Text.width_append, Text.width_append, width_spaces, width_spaces]
    omega

theorem ShowsLine.feed_not_mem {index : Nat} {shown : List Char}
    (h : ShowsLine side width text index shown) : '\n' ∉ shown := by
  have hline := feed_not_mem_cellLineAt text index
  cases side with
  | left =>
    obtain ⟨n, rfl⟩ := h.left rfl
    simp [hline, spaces]
  | right =>
    obtain ⟨n, rfl⟩ := h.right rfl
    simp [hline, spaces]

namespace Table

variable {t : Table} {compact : Bool} {row block : List String} {rows : List (List String)}

/-- A line with these columns, a blank on either side of each. -/
def lineOf (compact : Bool) (columns : List (List Char)) : String :=
  let pieces := columns.map fun c => String.ofList (' ' :: c ++ [' '])
  if compact then edged "" " " "" pieces else edged "│" "│" "│" pieces

/-- A block of lines shows a row of the table: it is as high as the tallest cell, and every line of
it has all columns. -/
structure ShowsRow (t : Table) (compact : Bool) (row block : List String) : Prop where
  height : ∀ n, block.length ≤ n ↔ 1 ≤ n ∧ ∀ c ∈ row, (cellLines c).length ≤ n
  columns : ∀ index line, block[index]? = some line →
    ∃ shown, line = lineOf compact shown ∧ shown.length = t.columnCount ∧
      ∀ j c, shown[j]? = some c →
        ShowsLine (t.sides[j]?.getD .left) (t.columnWidth j) (cell row j) index c

/-- The block of the first row. In a frame it stands between the upper edge and a rule. -/
def opening (t : Table) (compact : Bool) (head : List String) : List String :=
  if compact then head
  else rule t.widths "╭" "┬" "╮" :: head ++ [rule t.widths "├" "┼" "┤"]

/-- The lower edge of a frame, unless the rule below the first row is the last line. -/
def closing (t : Table) (compact : Bool) : List String :=
  if compact || t.rows.length ≤ 1 then [] else [rule t.widths "╰" "┴" "╯"]

/-- The blocks of the rows stand below each other, with the lines of the frame if there is one. -/
inductive Shows (t : Table) (compact : Bool) : List String → Prop where
  | blocks {first rest head blocks} (hrows : t.rows = first :: rest)
    (hhead : t.ShowsRow compact first head)
    (hblocks : List.Forall₂ (t.ShowsRow compact) rest blocks) :
    t.Shows compact (t.opening compact head ++ blocks.flatten ++ t.closing compact)

theorem columnWidth_le_iff {j : Nat} :
    t.columnWidth j ≤ n ↔ ∀ row ∈ t.rows, cellWidth (cell row j) ≤ n := by
  simp [columnWidth, foldl_max_le_iff]

theorem columnCount_le_iff : t.columnCount ≤ n ↔ ∀ row ∈ t.rows, row.length ≤ n := by
  simp [columnCount, foldl_max_le_iff]

theorem rowLine_eq (t : Table) (compact : Bool) (row : List String) (index : Nat) :
    t.rowLine compact t.widths row index =
      lineOf compact (t.widths.mapIdx fun j width =>
        cellLine (t.sides[j]?.getD .left) width (cell row j) index) := by
  simp only [rowLine, lineOf, List.mapIdx_eq_zipIdx_map, List.map_map]
  rfl

theorem showsRow_rowLines (compact : Bool) (h : row ∈ t.rows) :
    t.ShowsRow compact row (t.rowLines compact t.widths row) where
  height n := by
    rw [rowLines, List.length_map, List.length_range, rowHeight, foldl_max_le_iff,
      List.forall_mem_map]
  columns index line hline := by
    rw [rowLines, List.getElem?_map] at hline
    obtain ⟨i, hi, rfl⟩ := Option.map_eq_some_iff.1 hline
    obtain rfl : index = i := by
      obtain ⟨_, rfl⟩ := List.getElem?_eq_some_iff.1 hi
      exact (List.getElem_range _).symm
    refine ⟨_, rowLine_eq t compact row index, by simp [widths], fun j c hc => ?_⟩
    rw [List.getElem?_mapIdx] at hc
    obtain ⟨width, hwidth, rfl⟩ := Option.map_eq_some_iff.1 hc
    obtain rfl : t.columnWidth j = width := by
      rw [widths, List.getElem?_map] at hwidth
      obtain ⟨j', hj', rfl⟩ := Option.map_eq_some_iff.1 hwidth
      obtain ⟨_, rfl⟩ := List.getElem?_eq_some_iff.1 hj'
      rw [List.getElem_range]
    exact showsLine_cellLine _ (columnWidth_le_iff.1 (Nat.le_refl _) row h) index

theorem shows_textLines (hrows : t.rows ≠ []) (compact : Bool) :
    t.Shows compact (t.textLines compact) := by
  obtain ⟨first, rest, hrows⟩ := List.exists_cons_of_ne_nil hrows
  have hblocks : List.Forall₂ (t.ShowsRow compact) rest
      (rest.map (t.rowLines compact t.widths)) := by
    rw [List.forall₂_map_right_iff, List.forall₂_same]
    intro row hrow
    refine showsRow_rowLines compact ?_
    rw [hrows]
    exact .tail _ hrow
  have hshows := Shows.blocks hrows (showsRow_rowLines compact (hrows ▸ .head _)) hblocks
  rw [← List.flatMap_def] at hshows
  cases compact with
  | true =>
    rw [textLines, if_pos rfl, hrows, List.flatMap_cons]
    simpa [opening, closing] using hshows
  | false =>
    simp only [textLines, hrows, Bool.false_eq_true, if_false, List.isEmpty_iff]
    simp only [opening, closing, hrows, Bool.false_or, Bool.false_eq_true, if_false] at hshows
    split_ifs with hrest
    · subst hrest
      simpa using hshows
    · simpa [hrest] using hshows

/-- A row whose cells have one line each takes one line. -/
theorem ShowsRow.exists_line (h : t.ShowsRow compact row block)
    (hrow : ∀ c ∈ row, Text.OneLine c) : ∃ line, block = [line] := by
  have hle : block.length ≤ 1 := by
    refine (h.height 1).2 ⟨Nat.le_refl 1, fun c hc => ?_⟩
    rw [cellLines, Text.splitOn_of_not_mem (hrow c hc)]
    exact Nat.le_refl 1
  have hpos : ¬ block.length ≤ 0 := fun hzero => absurd ((h.height 0).1 hzero).1 (by decide)
  exact List.length_eq_one_iff.1 (by omega)

/-- Rows whose cells have one line each take as many lines as there are rows. -/
theorem exists_body {α : Type} {xs : List α} {rowOf : α → List String} {blocks : List (List String)}
    (h : List.Forall₂ (fun x block => t.ShowsRow compact (rowOf x) block) xs blocks)
    (hrow : ∀ x ∈ xs, ∀ c ∈ rowOf x, Text.OneLine c) :
    ∃ body, List.Forall₂ (fun x line => t.ShowsRow compact (rowOf x) [line]) xs body ∧
      blocks.flatten = body := by
  induction h with
  | nil => exact ⟨[], .nil, rfl⟩
  | @cons x _ xs blocks hblock _ ih =>
    obtain ⟨hx, hxs⟩ := List.forall_mem_cons.1 hrow
    obtain ⟨body, hbody, hflatten⟩ := ih hxs
    obtain ⟨line, rfl⟩ := hblock.exists_line hx
    refine ⟨line :: body, .cons hblock hbody, ?_⟩
    rw [List.flatten_cons, hflatten, List.singleton_append]

section Lines

variable {line : String} {ls pieces : List String}

theorem oneLine_edged {left separator right : String} (hleft : Text.OneLine left)
    (hseparator : Text.OneLine separator) (hright : Text.OneLine right)
    (h : ∀ p ∈ pieces, Text.OneLine p) : Text.OneLine (edged left separator right pieces) :=
  (hleft.append (Text.oneLine_join hseparator h)).append hright

theorem oneLine_rule (widths : List Nat) {left separator right : String}
    (hleft : Text.OneLine left) (hseparator : Text.OneLine separator)
    (hright : Text.OneLine right) : Text.OneLine (rule widths left separator right) := by
  refine oneLine_edged hleft hseparator hright (List.forall_mem_map.2 fun n _ => ?_)
  simp [Text.OneLine]

theorem oneLine_lineOf {shown : List (List Char)} (h : ∀ c ∈ shown, '\n' ∉ c) :
    Text.OneLine (lineOf compact shown) := by
  have hpieces : ∀ p ∈ shown.map fun c => String.ofList (' ' :: c ++ [' ']), Text.OneLine p := by
    refine List.forall_mem_map.2 fun c hc => ?_
    simp [Text.OneLine, h c hc]
  unfold lineOf
  cases compact with
  | true => exact oneLine_edged (by decide) (by decide) (by decide) hpieces
  | false => exact oneLine_edged (by decide) (by decide) (by decide) hpieces

theorem ShowsRow.oneLine (h : t.ShowsRow compact row block) :
    ∀ line ∈ block, Text.OneLine line := by
  intro line hline
  obtain ⟨index, hindex⟩ := List.mem_iff_getElem?.1 hline
  obtain ⟨shown, rfl, _, hshown⟩ := h.columns index line hindex
  refine oneLine_lineOf fun c hc => ?_
  obtain ⟨j, hj⟩ := List.mem_iff_getElem?.1 hc
  exact (hshown j c hj).feed_not_mem

/-- What holds of the lines of all rows and of the rules holds of the whole table. -/
theorem Shows.forall_mem {P : String → Prop} (h : t.Shows compact ls)
    (hrow : ∀ row block, t.ShowsRow compact row block → ∀ line ∈ block, P line)
    (hrule : compact = false → P (rule t.widths "╭" "┬" "╮") ∧ P (rule t.widths "├" "┼" "┤") ∧
      P (rule t.widths "╰" "┴" "╯")) : ∀ line ∈ ls, P line := by
  have hblocks : ∀ {rows blocks}, List.Forall₂ (t.ShowsRow compact) rows blocks →
      ∀ line ∈ blocks.flatten, P line := by
    intro rows blocks h
    induction h with
    | nil => exact nofun
    | cons hblock _ ih =>
      rw [List.flatten_cons]
      intro line hline
      rcases List.mem_append.1 hline with hline | hline
      · exact hrow _ _ hblock line hline
      · exact ih line hline
  cases h with
  | blocks hrows hhead h =>
    intro line hline
    rw [List.mem_append, List.mem_append] at hline
    rcases hline with (hline | hline) | hline
    · cases compact with
      | true => exact hrow _ _ hhead line hline
      | false =>
        obtain ⟨htop, hmiddle, _⟩ := hrule rfl
        simp only [opening, Bool.false_eq_true, if_false, List.mem_append, List.mem_cons,
          List.not_mem_nil, or_false] at hline
        rcases hline with (rfl | hline) | rfl
        · exact htop
        · exact hrow _ _ hhead line hline
        · exact hmiddle
    · exact hblocks h line hline
    · unfold closing at hline
      split_ifs at hline with hnone
      · cases hline
      · rw [List.mem_singleton.1 hline]
        have hframed : compact = false := by
          rw [Bool.not_eq_true, Bool.or_eq_false_iff] at hnone
          exact hnone.1
        exact (hrule hframed).2.2

theorem Shows.oneLine (h : t.Shows compact ls) : ∀ line ∈ ls, Text.OneLine line := by
  refine h.forall_mem (fun _ _ hrow => hrow.oneLine) fun _ => ⟨?_, ?_, ?_⟩
  all_goals exact oneLine_rule _ (by decide) (by decide) (by decide)

theorem rows_ne_nil (h : t.columnCount ≠ 0) : t.rows ≠ [] := by
  intro hrows
  rw [columnCount, hrows] at h
  exact h rfl

theorem ShowsRow.ne_nil (h : t.ShowsRow compact row block) : block ≠ [] := by
  rintro rfl
  have hone := ((h.height 0).1 (Nat.le_refl 0)).1
  contradiction

theorem Shows.ne_nil (h : t.Shows compact ls) : ls ≠ [] := by
  cases h with
  | blocks hrows hhead h =>
    cases compact with
    | true =>
      rw [List.append_assoc]
      exact List.append_ne_nil_of_left_ne_nil hhead.ne_nil _
    | false => simp [opening]

/-- The lines of a table with a column. -/
theorem shows_text (h : t.columnCount ≠ 0) (s : Settings) :
    t.Shows s.compact (Text.lines (t.text s)) := by
  have hshows := shows_textLines (rows_ne_nil h) s.compact
  rw [text, if_neg h, Text.lines_join hshows.ne_nil hshows.oneLine]
  exact hshows

theorem width_join (separator : String) (hne : pieces ≠ []) :
    Text.width (Text.join separator pieces).toList + Text.width separator.toList =
      (pieces.map fun p => Text.width p.toList + Text.width separator.toList).sum := by
  induction pieces with
  | nil => exact absurd rfl hne
  | cons p ps ih =>
    cases ps with
    | nil => simp
    | cons q qs =>
      have hrest := ih (List.cons_ne_nil q qs)
      rw [List.map_cons, List.sum_cons, ← hrest, Text.toList_join_cons_cons]
      simp only [Text.width_append]
      omega

/-- Pieces that fill the columns and a blank on either side of them. -/
def Fill (t : Table) (pieces : List String) : Prop :=
  (pieces.map fun p => Text.width p.toList) = t.widths.map (· + 2)

theorem Fill.width_edged (h : t.Fill pieces) (hcolumns : t.columnCount ≠ 0)
    {left separator right : String} (hseparator : Text.width separator.toList = 1) :
    Text.width (edged left separator right pieces).toList + 1 =
      (t.widths.map (· + 3)).sum + (Text.width left.toList + Text.width right.toList) := by
  have hne : pieces ≠ [] := by
    rintro rfl
    have hlength := congrArg List.length h
    simp only [widths, List.map_nil, List.length_nil, List.length_map, List.length_range] at hlength
    exact hcolumns hlength.symm
  have hjoin := width_join separator hne
  have hsum : (pieces.map fun p => Text.width p.toList + Text.width separator.toList) =
      t.widths.map (· + 3) := by
    have := congrArg (List.map (· + 1)) h
    simpa [hseparator, Function.comp_def] using this
  rw [hsum, hseparator] at hjoin
  simp only [edged, String.toList_append, Text.width_append]
  omega

/-- The marks of a frame take a column each. -/
theorem width_framed (h : t.Fill pieces) (hcolumns : t.columnCount ≠ 0)
    {left separator right : String}
    (hmarks : [left, separator, right].map (fun m => Text.width m.toList) = [1, 1, 1]) :
    Text.width (edged left separator right pieces).toList + 1 =
      (t.widths.map (· + 3)).sum + if false then 0 else 2 := by
  obtain ⟨hleft, hseparator, hright⟩ : Text.width left.toList = 1 ∧
      Text.width separator.toList = 1 ∧ Text.width right.toList = 1 := by simpa using hmarks
  rw [h.width_edged hcolumns hseparator, hleft, hright]
  rfl

theorem fill_rule (t : Table) :
    t.Fill (t.widths.map fun n => String.ofList (List.replicate (n + 2) '─')) := by
  have hmark : Text.charWidth '─' = 1 := by decide +kernel
  rw [Fill, List.map_map]
  refine List.map_congr_left fun n _ => ?_
  simp [width_replicate, hmark]

theorem ShowsRow.width_eq (h : t.ShowsRow compact row block) (hcolumns : t.columnCount ≠ 0) :
    ∀ line ∈ block, Text.width line.toList + 1 =
      (t.widths.map (· + 3)).sum + if compact then 0 else 2 := by
  intro line hline
  obtain ⟨index, hindex⟩ := List.mem_iff_getElem?.1 hline
  obtain ⟨shown, rfl, hlength, hshown⟩ := h.columns index line hindex
  have hfill : t.Fill (shown.map fun c => String.ofList (' ' :: c ++ [' '])) := by
    apply List.ext_getElem
    · simp [widths, hlength]
    · intro j hj _
      simp only [List.length_map] at hj
      have hwidth := (hshown j shown[j] (List.getElem?_eq_getElem hj)).width_eq
      have hblank : Text.charWidth ' ' = 1 := by decide
      simp [widths, hwidth, hblank]
      omega
  cases compact with
  | true => exact hfill.width_edged hcolumns rfl
  | false => exact width_framed hfill hcolumns (by decide +kernel)

/-- All lines of a table are equally wide. -/
theorem Shows.width_eq (h : t.Shows compact ls) (hcolumns : t.columnCount ≠ 0) :
    ∀ line ∈ ls, Text.width line.toList + 1 =
      (t.widths.map (· + 3)).sum + if compact then 0 else 2 := by
  refine h.forall_mem (fun _ _ hrow => hrow.width_eq hcolumns) ?_
  rintro rfl
  have hrule := fill_rule t
  exact ⟨width_framed hrule hcolumns (by decide +kernel),
    width_framed hrule hcolumns (by decide +kernel),
    width_framed hrule hcolumns (by decide +kernel)⟩

end Lines

end Table

end StorageUpgrade.Report
