import DragonflyFabric.Exits.LinkMap
import DragonflyFabric.Grid

/-!
The exit table of a group: for each other group, by its row, and each parallel link, by its slot, the
router that has the link and the port it has it on.

A table is drafted entry by entry, each entry once, and finished when no entry is missing. A finished table
is never written again; routers read it through views, which are bound to it once.
-/

namespace DragonflyFabric.ExitTable

/-- A table being filled. -/
structure Draft where
  cells : Grid (Option Exit)
  deriving DecidableEq

/-- A finished table. -/
structure Store where
  cells : Grid (Option Exit)
  deriving DecidableEq

namespace Draft

def empty (rows slots : Nat) : Draft := ⟨.constant none rows slots⟩

/-- An empty draft, as long as there is room for its entries: six bytes for each. -/
def make (rows slots : Nat) : Except Fault Draft :=
  if Storage.holds (rows * slots) 6 then .ok (empty rows slots) else .error .abort

/-- Writes an entry. A second exit for the same entry means that two ports serve one link. -/
def set (d : Draft) (row slot : Nat) (e : Exit) : Except Fault Draft :=
  match d.cells.get? row slot with
  | none => .error (.noTableEntry row slot d.cells.rows d.cells.columns)
  | some (some first) => .error (.wiring (.servedTwice row slot first e))
  | some none =>
    match d.cells.set? row slot (some e) with
    | some cells => .ok ⟨cells⟩
    | none => .error .abort

/-- The global ports of a group, as a position and an index each. -/
def exitPlaces (p : Parameters) : List (Nat × Nat) :=
  (List.range p.routers).flatMap fun position => (List.range p.exits).map (position, ·)

/-- The draft that a link map fills. -/
def ofLinkMap (p : Parameters) (m : LinkMap) : Except Fault Draft := do
  let start ← make p.rows p.links
  (exitPlaces p).foldlM
    (fun d (position, index) =>
      match m.link? p position index with
      | some (row, slot) => d.set row slot (.ofPlace position (p.exitPort index))
      | none => .ok d)
    start

/-- The first entry not written yet, row by row. -/
def firstMissing? (d : Draft) : Option (Nat × Nat) :=
  (d.cells.cells.findIdx? (·.isNone)).map fun i => (i / d.cells.columns, i % d.cells.columns)

/-- Ends the writing. Every entry must have been written. -/
def finish (d : Draft) : Except Fault Store :=
  match d.firstMissing? with
  | some (row, slot) => .error (.incomplete row slot)
  | none => .ok ⟨d.cells⟩

end Draft

/-- What a router sees of a table: nothing until it is bound to one. -/
structure View where
  store : Option Store
  rows : Nat
  slots : Nat
  deriving DecidableEq

namespace View

def unbound : View := ⟨none, 0, 0⟩

/-- Binds a view to a table of the given size. It can only be done once. -/
def bind (v : View) (s : Store) (rows slots : Nat) : Except Fault View :=
  if v.store.isSome then
    .error .tableBound
  else if s.cells.rows ≠ rows ∨ s.cells.columns ≠ slots then
    .error (.parameters (.tableSize s.cells.rows s.cells.columns rows slots))
  else
    .ok ⟨some s, rows, slots⟩

/-- A view of the table that a link map fills. -/
def ofLinkMap (p : Parameters) (m : LinkMap) : Except Fault View := do
  let draft ← Draft.ofLinkMap p m
  let store ← draft.finish
  unbound.bind store p.rows p.links

/-- The exit for a row and a slot. -/
def lookup (v : View) (row slot : Nat) : Except Fault Exit :=
  match v.store with
  | none => .error .tableUnbound
  | some s =>
    if v.rows ≤ row ∨ v.slots ≤ slot then
      .error (.noTableEntry row slot v.rows v.slots)
    else
      match s.cells.cell? row slot with
      | some (some e) => .ok e
      | _ => .error (.unserved row slot)

/-- Whether a port of the routers at a position is the exit of some entry. -/
def isUsed (v : View) (position port : Nat) : Bool :=
  match v.store with
  | none => false
  | some s =>
    (List.range v.rows).any fun row =>
      (List.range v.slots).any fun slot => s.cells.cell? row slot = some (some (.ofPlace position port))

/-- All entries, row by row. -/
def entries (v : View) : List (List (Except Fault Exit)) :=
  (List.range v.rows).map fun row => (List.range v.slots).map fun slot => v.lookup row slot

end View

end DragonflyFabric.ExitTable
