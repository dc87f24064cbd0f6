import DragonflyFabric.Router.Ports

/-!
Data sent before the simulation starts, to one host or to every one. Nothing it depends on changes.

Data for everyone spreads so that each host gets one copy: the router of the source sends it around its
group, every router of that group over one link to each group it is linked to, and the router that gets
it there around that group.
-/

namespace DragonflyFabric.Site

variable (s : Site)

/-- The packet for a request to one host or to every one. -/
def announce (request : Request) : Except Fault Packet := do
  let dest ←
    if request.destination = broadcastDestination then pure Address.everyone
    else s.parameters.locate request.destination
  return {
    request := request
    channel := 0
    origin := UInt32.ofNat s.group
    dest := dest
    slot := 0
    otherSlot := 0 }

/-- The global ports of this router that serve the first slot of some row, row by row. -/
def firstExits : Except Fault (List Nat) := do
  let exits ← (List.range s.parameters.rows).mapM (s.table.lookup · 0)
  return (exits.filter fun e => e.router.toNat = s.position).map fun e => e.port.toNat

/-- The ports by which data for everyone leaves, having come by a port. -/
def spreadPorts (portIn : Nat) (k : Packet) : Except Fault (List Nat) := do
  let p := s.parameters
  let cameBy ← p.classOf portIn
  let hosts := (List.range p.hosts).filter fun port => cameBy ≠ .host || port ≠ portIn
  let siblings :=
    if cameBy = .sibling then [] else (List.range (p.routers - 1)).map (p.firstSibling + ·)
  let exits ← if cameBy ≠ .exit ∧ k.origin.toNat = s.group then s.firstExits else pure []
  return hosts ++ siblings ++ exits

/-- The ports by which such data leaves, having come by a port. -/
def announcePorts (portIn : Nat) (k : Packet) : Except Fault (List Nat) :=
  if k.dest.isEveryone then
    s.spreadPorts portIn k
  else do
    let port ← s.fixedPort k.request.source k.dest
    return [port]

end DragonflyFabric.Site
