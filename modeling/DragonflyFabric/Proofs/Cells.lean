import DragonflyFabric.Grid
import DragonflyFabric.Proofs.Words

/-!
# Cells of a grid

A row and a column name one place each (`place_inj`), so that writing a cell changes that cell alone:
`get?_set?`. Both only hold of places that are words. Nothing keeps the rows of a grid from being counted further
than that, and a row that is too far names the place of another one.
-/

namespace DragonflyFabric.Grid

variable {α : Type} {g g' : Grid α} {row column row' column' rows : Nat} {value : α}

theorem place_inj {columns : Nat} (hc : column < columns) (hc' : column' < columns)
    (h : row * columns + column = row' * columns + column') : row = row' ∧ column = column' := by
  have hm : column = column' := by
    have := congrArg (· % columns) h
    simp only [Nat.mul_add_mod_self_right, Nat.mod_eq_of_lt hc, Nat.mod_eq_of_lt hc'] at this
    exact this
  subst hm
  exact ⟨Nat.eq_of_mul_eq_mul_right (by omega) (Nat.add_right_cancel h), rfl⟩

theorem place_lt {columns : Nat} (hr : row < rows) (hc : column < columns) :
    row * columns + column < rows * columns := by
  have hm : (row + 1) * columns ≤ rows * columns := Nat.mul_le_mul_right _ hr
  rw [Nat.add_mul, Nat.one_mul] at hm
  omega

/-- The row and the column of a place. -/
theorem place_div {columns : Nat} (hc : column < columns) (row : Nat) : (row * columns + column) / columns = row := by
  rw [Nat.mul_comm, Nat.mul_add_div (Nat.zero_lt_of_lt hc), Nat.div_eq_of_lt hc, Nat.add_zero]

theorem place_mod {columns : Nat} (hc : column < columns) (row : Nat) :
    (row * columns + column) % columns = column := by
  rw [Nat.mul_add_mod_self_right, Nat.mod_eq_of_lt hc]

theorem place_of_lt (h : row * g.columns + column < 2 ^ 64) : g.place row column = row * g.columns + column :=
  Word.wrap_of_lt h

/-- A place that is a word is that of its row and column. -/
theorem place_div_mod {i : Nat} (h : i < 2 ^ 64) : g.place (i / g.columns) (i % g.columns) = i := by
  rw [place, Nat.div_add_mod', Word.wrap_of_lt h]

theorem place_eq (hwords : rows * g.columns ≤ 2 ^ 64) (hr : row < rows) (hc : column < g.columns) :
    g.place row column = row * g.columns + column :=
  place_of_lt (Nat.lt_of_lt_of_le (place_lt hr hc) hwords)

theorem column_lt_of_get? (h : g.get? row column = some value) : column < g.columns := by
  rw [get?] at h
  split at h
  · assumption
  · cases h

theorem cell?_eq_get? (h : column < g.columns) : g.cell? row column = g.get? row column := by
  rw [get?, if_pos h]

theorem set?_eq_some (h : g.set? row column value = some g') :
    column < g.columns ∧ g.place row column < g.cells.size ∧
      g' = { g with cells := g.cells.setIfInBounds (g.place row column) value } := by
  rw [set?] at h
  split at h
  · next hc =>
    simp only [setCell?] at h
    split at h
    · next hp => exact ⟨hc, hp, (Option.some.inj h).symm⟩
    · cases h
  · cases h

/-- Writing a cell changes what stands at its place. -/
theorem get?_set?_of_place (h : g.set? row column value = some g') :
    g'.get? row' column' =
      if column' < g.columns ∧ g.place row' column' = g.place row column then some value
      else g.get? row' column' := by
  obtain ⟨-, hp, rfl⟩ := set?_eq_some h
  show (if column' < g.columns then (g.cells.setIfInBounds (g.place row column) value)[g.place row' column']?
    else none) = _
  rw [get?, cell?, Array.getElem?_setIfInBounds]
  by_cases hc' : column' < g.columns
  · by_cases hplace : g.place row' column' = g.place row column
    · rw [if_pos hc', if_pos hplace.symm, if_pos hp, if_pos ⟨hc', hplace⟩]
    · rw [if_pos hc', if_neg (Ne.symm hplace), if_neg fun hat => hplace hat.2, if_pos hc']
  · rw [if_neg hc', if_neg fun hat => hc' hat.1, if_neg hc']

/-- Where the places of some rows are words, it changes no other cell of these rows. -/
theorem get?_set? (h : g.set? row column value = some g') (hwords : rows * g.columns ≤ 2 ^ 64) (hr : row < rows)
    (hr' : row' < rows) : g'.get? row' column' =
      if row' = row ∧ column' = column then some value else g.get? row' column' := by
  obtain ⟨hc, -, -⟩ := set?_eq_some h
  rw [get?_set?_of_place h]
  by_cases hat : row' = row ∧ column' = column
  · obtain ⟨rfl, rfl⟩ := hat
    rw [if_pos ⟨hc, rfl⟩, if_pos ⟨rfl, rfl⟩]
  · rw [if_neg hat, if_neg]
    rintro ⟨hc', hplace⟩
    rw [place_eq hwords hr hc, place_eq hwords hr' hc'] at hplace
    exact hat (place_inj hc' hc hplace)

/-- Changing a cell of a whole grid changes no other one. -/
theorem exists_modifyCell? (hwords : rows * g.columns ≤ 2 ^ 64) (hsize : g.cells.size = rows * g.columns)
    (hr : row < rows) (hc : column < g.columns) (f : α → α) :
    ∃ g', g.modifyCell? row column f = some g' ∧ g'.columns = g.columns ∧ g'.cells.size = g.cells.size ∧
      ∀ row' column', row' < rows →
        g'.get? row' column' =
          if row' = row ∧ column' = column then (g.get? row' column').map f else g.get? row' column' := by
  have hplace : g.place row column < g.cells.size := by
    rw [place_eq hwords hr hc, hsize]
    exact place_lt hr hc
  refine ⟨_, if_pos hplace, rfl, Array.size_modify, fun row' column' hr' => ?_⟩
  show (if column' < g.columns then (g.cells.modify (g.place row column) f)[g.place row' column']? else none) = _
  rw [get?, cell?, Array.getElem?_modify]
  by_cases hc' : column' < g.columns
  · simp only [if_pos hc', place_eq hwords hr hc, place_eq hwords hr' hc']
    by_cases hat : row' = row ∧ column' = column
    · obtain ⟨rfl, rfl⟩ := hat
      rw [if_pos rfl, if_pos ⟨rfl, rfl⟩]
    · rw [if_neg hat, if_neg fun heq => hat (place_inj hc' hc heq.symm)]
  · rw [if_neg hc', if_neg hc', Option.map_none, ite_self]

/-- What stands at one place is one cell. -/
theorem get?_eq_of_place (hc : column < g.columns) (hc' : column' < g.columns)
    (h : g.place row column = g.place row' column') : g.get? row column = g.get? row' column' := by
  rw [← cell?_eq_get? hc, ← cell?_eq_get? hc', cell?, cell?, h]

/-- A cell that can be read can be written. -/
theorem exists_set? {old : α} (h : g.get? row column = some old) (value : α) :
    ∃ g', g.set? row column value = some g' := by
  have hc := column_lt_of_get? h
  rw [← cell?_eq_get? hc, cell?] at h
  obtain ⟨hplace, -⟩ := Array.getElem?_eq_some_iff.mp h
  refine ⟨{ g with cells := g.cells.setIfInBounds (g.place row column) value }, ?_⟩
  rw [set?, if_pos hc]
  exact if_pos hplace

theorem get?_constant {columns : Nat} (hwords : rows * columns ≤ 2 ^ 64) (hr : row < rows) (hc : column < columns) :
    (constant value rows columns).get? row column = some value := by
  have hplace : (constant value rows columns).place row column = row * columns + column := place_eq hwords hr hc
  rw [get?]
  refine (if_pos hc).trans ?_
  rw [cell?, hplace, constant, Array.getElem?_replicate, if_pos (place_lt hr hc)]

theorem eq_of_get?_constant {columns : Nat} {found : α}
    (h : (constant value rows columns).get? row column = some found) : found = value := by
  rw [← cell?_eq_get? (column_lt_of_get? h), cell?, constant, Array.getElem?_replicate] at h
  split at h
  · exact (Option.some.inj h).symm
  · cases h

/-! ### Grids made of rows -/

theorem getElem?_flatten {rows : List (List α)} {columns : Nat} (hlength : ∀ cells ∈ rows, cells.length = columns)
    (hc : column < columns) : rows.flatten[row * columns + column]? = rows[row]?.bind (·[column]?) := by
  induction rows generalizing row with
  | nil => simp
  | cons first rest ih =>
    have hfirst : first.length = columns := hlength first List.mem_cons_self
    rw [List.flatten_cons]
    cases row with
    | zero =>
      rw [Nat.zero_mul, Nat.zero_add, List.getElem?_append_left (by omega)]
      rfl
    | succ row =>
      rw [Nat.succ_mul, List.getElem?_append_right (by omega), List.getElem?_cons_succ,
        ← ih fun cells hcells => hlength cells (List.mem_cons_of_mem first hcells)]
      exact congrArg _ (by omega)

/-- The cells off the diagonal are those whose row and column differ. -/
theorem mem_offDiagonal_iff : value ∈ g.offDiagonal ↔
    ∃ place : Nat, g.cells[place]? = some value ∧ place / g.columns ≠ place % g.columns := by
  simp only [offDiagonal, List.mem_filterMap, List.mem_zipIdx_iff_getElem?, Prod.exists, Option.ite_none_right_eq_some,
    Option.some_inj, Array.getElem?_toList]
  constructor
  · rintro ⟨_, place, hat, hne, rfl⟩
    exact ⟨place, hat, hne⟩
  · rintro ⟨place, hat, hne⟩
    exact ⟨value, place, hat, hne, rfl⟩

end DragonflyFabric.Grid
