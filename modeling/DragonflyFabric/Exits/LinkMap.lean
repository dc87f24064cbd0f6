import DragonflyFabric.Fault
import DragonflyFabric.Storage

/-!
Which link each global port of a group serves. The map is the same in every group.
-/

namespace DragonflyFabric

/-- One entry for each global port, position by position: the number of its link, or `-1` for none. Link
numbers run through the rows first and then through the parallel slots. -/
structure LinkMap where
  entries : Array Int
  deriving DecidableEq, Inhabited

namespace LinkMap

/-- The first entry that is neither a link below the bound nor `-1`, with its index. -/
def firstBad? (bound : Int) (entries : Array Int) : Option (Nat × Int) :=
  (entries.toList.zipIdx.find? fun (link, _) => link < -1 || bound ≤ link).map
    fun (link, index) => (index, link)

/-- What the links of a map have to stay below: their number, read as a signed one of sixty-four bits. From
half of that range on it is negative, and no entry is below it. -/
def bound (p : Parameters) : Int := Int.bmod p.linkCount 0x10000000000000000

/-- A map given entry by entry. -/
def ofEntries (p : Parameters) (entries : Array Int) : Report LinkMap := do
  let expected := p.routers * p.exits
  if entries.size ≠ expected then
    throw (.parameters (.linkMapSize entries.size expected))
  match firstBad? (bound p) entries with
  | some (index, link) => throw (.parameters (.linkOutOfRange index link (bound p)))
  | none =>
    let idle := entries.count (-1)
    if 0 < idle then
      Report.warn (.idleExits idle)
    return ⟨entries⟩

/-- The links in order, as many on each router as it takes to place them all. -/
def spread (p : Parameters) : Report LinkMap := do
  if !Storage.holds (p.routers * p.exits) 8 then
    throw .abort
  if p.linkCount = 0 then
    ofEntries p (Array.replicate (p.routers * p.exits) (-1))
  else if p.routers = 0 then
    throw .abort
  else
    let each := (p.linkCount + p.routers - 1) / p.routers
    if p.exits < each then
      throw (.parameters (.linksPerRouter each p.exits))
    ofEntries p <| (Array.range (p.routers * p.exits)).map fun i =>
      let link := i / p.exits * each + i % p.exits
      if i % p.exits < each ∧ link < p.linkCount then (link : Int) else -1

/-- The row and slot served by a global port of the router at a position. -/
def link? (m : LinkMap) (p : Parameters) (position index : Nat) : Option (Nat × Nat) :=
  match m.entries[position * p.exits + index]? with
  | some link => if link < 0 then none else some (link.toNat % p.rows, link.toNat / p.rows)
  | none => none

end LinkMap

end DragonflyFabric
