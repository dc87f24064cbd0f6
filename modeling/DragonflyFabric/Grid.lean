import DragonflyFabric.Storage
import DragonflyFabric.Word

/-!
Grids of cells, row by row.
-/

namespace DragonflyFabric

structure Grid (α : Type) where
  cells : Array α
  columns : Nat
  deriving DecidableEq, Inhabited

namespace Grid

variable {α β : Type} (g : Grid α)

/-- The number of whole rows. Without columns there are none. -/
def rows : Nat := if g.columns = 0 then 0 else g.cells.size / g.columns

/-- Where a cell stands among all cells. A row beyond the last one is not checked, and its place may wrap. -/
def place (row column : Nat) : Nat := Word.wrap (row * g.columns + column)

/-- The cell at a place counted through the rows. A column beyond the last one runs on into the rows
that follow. -/
def cell? (row column : Nat) : Option α := g.cells[g.place row column]?

/-- The cell in a row and a column. -/
def get? (row column : Nat) : Option α := if column < g.columns then g.cell? row column else none

/-- Writes the cell at a place counted through the rows. -/
def setCell? (row column : Nat) (value : α) : Option (Grid α) :=
  let place := g.place row column
  if place < g.cells.size then some { g with cells := g.cells.setIfInBounds place value } else none

/-- Changes the cell at a place counted through the rows. -/
def modifyCell? (row column : Nat) (f : α → α) : Option (Grid α) :=
  let place := g.place row column
  if place < g.cells.size then some { g with cells := g.cells.modify place f } else none

/-- Writes the cell in a row and a column. -/
def set? (row column : Nat) (value : α) : Option (Grid α) :=
  if column < g.columns then g.setCell? row column value else none

def constant (value : α) (rows columns : Nat) : Grid α := ⟨Array.replicate (rows * columns) value, columns⟩

/-- The grid of one value in every cell, as long as there is room for cells of so many bytes. -/
def constant? (bytes : Nat) (value : α) (rows columns : Nat) : Option (Grid α) :=
  if Storage.holds (rows * columns) bytes then some (constant value rows columns) else none

def map (f : α → β) : Grid β := ⟨g.cells.map f, g.columns⟩

/-- The cells whose row and column differ, row by row. -/
def offDiagonal : List α :=
  g.cells.toList.zipIdx.filterMap fun (value, i) =>
    if i / g.columns ≠ i % g.columns then some value else none

/-- The cells of each row. -/
def toLists : List (List α) :=
  (List.range g.rows).map fun row => (List.range g.columns).filterMap fun column => g.cell? row column

end Grid

end DragonflyFabric
