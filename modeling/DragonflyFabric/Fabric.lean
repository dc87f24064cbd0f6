import DragonflyFabric.Exits.Table
import DragonflyFabric.Numbering
import DragonflyFabric.Wiring.Audit

/-!
The whole network: every group wired alike, from one exit table and one link map.
-/

namespace DragonflyFabric

structure Fabric where
  parameters : Parameters
  numbering : Numbering
  table : ExitTable.View
  /-- The row and slot that each global port of a group serves, position by position. -/
  served : Array (Option (Nat × Nat))
  deriving DecidableEq

namespace Fabric

variable (f : Fabric)

/-- Where the global port that serves a row and a slot leads from a group: to the exit that the other
group has for the row of this one. -/
def across (group row slot : Nat) : Peer :=
  let p := f.parameters
  let other := f.numbering.groupAt group row p.groups
  match f.table.lookup (f.numbering.rowOf other group p.groups) slot with
  | .ok e => .router (p.routerAt other e.router.toNat) e.port.toNat
  | .error _ => .nothing

/-- What a port of a router leads to. -/
def link (router port : Nat) : Link :=
  let p := f.parameters
  let group := p.groupOf router
  let position := p.positionOf router
  match p.classOf? port with
  | some .host => ⟨.server (Word.wrap (router * p.hosts + port)), Link.hostKind⟩
  | some .sibling =>
    let other := p.siblingBehind position port
    ⟨.router (p.routerAt group other) (p.portToSibling other position), Link.localKind⟩
  | some .exit =>
    match f.served.getD (position * p.exits + (port - p.firstExit)) none with
    | none => ⟨.nothing, Link.globalKind⟩
    | some (row, slot) => ⟨f.across group row slot, Link.globalKind⟩
  | none => ⟨.nothing, Link.localKind⟩

/-- Where a host is attached. -/
def hostLink (host : Nat) : Link :=
  ⟨.router (host / f.parameters.hosts) (host % f.parameters.hosts), Link.hostKind⟩

/-- The network as seen from its ports. -/
def wiring : Wiring where
  routerCount := f.parameters.routerCount
  serverCount := f.parameters.hostCount
  ports? _ := some f.parameters.radix
  degree? _ := some (f.parameters.routers - 1 + f.parameters.exits)
  link? router port := if f.parameters.routers = 0 then none else some (f.link router port)
  serverLink? host := if f.parameters.hosts = 0 then none else some (f.hostLink host)

/-- The network over a table and a link map, without looking whether they match. -/
def ofParts (p : Parameters) (n : Numbering) (table : ExitTable.View) (m : LinkMap) : Fabric where
  parameters := p
  numbering := n
  table := table
  served := (Array.range (p.routers * p.exits)).map fun i => m.link? p (i / p.exits) (i % p.exits)

/-- The network over a table and a link map in which every wire leads back. -/
def build (p : Parameters) (n : Numbering) (table : ExitTable.View) (m : LinkMap) : Report Fabric := do
  let f := ofParts p n table m
  f.wiring.audit (some 3)
  return f

/-- The groups that the global ports of a group lead to. -/
def neighbours (group : Nat) : List Nat :=
  let p := f.parameters
  (List.range p.routers).flatMap fun position =>
    (List.range p.exits).filterMap fun index =>
      match (f.link (p.routerAt group position) (p.exitPort index)).peer with
      | .router other _ => some (p.groupOf other)
      | _ => none

/-- Counts one more link from a group to another. -/
def countLink (group : Nat) (trunks : Grid Nat) (other : Nat) : Except Fault (Grid Nat) :=
  (trunks.modifyCell? group other (· + 1)).elim (.error .abort) .ok

/-- How many global links join each two groups, as long as there is room for so many words. -/
def trunking : Except Fault (Grid Nat) := do
  let groups := f.parameters.groups
  let start ← (Grid.constant? 8 0 groups groups).elim (.error .abort) .ok
  (List.range groups).foldlM (fun trunks group => (f.neighbours group).foldlM (countLink group) trunks) start

end Fabric

end DragonflyFabric
