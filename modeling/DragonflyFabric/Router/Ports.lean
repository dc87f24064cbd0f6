import DragonflyFabric.Router.Basic

/-!
What a router knows of its ports: where each leads, and which one leads where.
-/

namespace DragonflyFabric

/-- What a port is connected to. -/
inductive PortState
  | host | router | nothing
  deriving DecidableEq

def PortState.name : PortState → String
  | host => "R2N"
  | router => "R2R"
  | nothing => "UNCONNECTED"

namespace Site

variable (s : Site)

/-- The port toward another group by one of the parallel links, for this router or for the one at a
given position of the group: the global port of the link on the router that has it, and the port to
that router on any other. -/
def portToGroup (group slot : Nat) (position : Option Nat) : Except Fault Nat := do
  let p := s.parameters
  if group = s.group ∨ p.groups ≤ group then
    throw (.parameters (.notLinked group s.group))
  let exit ← s.table.lookup (s.numbering.rowOf s.group group p.groups) slot
  let here := position.getD s.position
  if p.routers ≤ here then
    throw (.parameters (.noSuchPosition here p.routers))
  return if exit.router.toNat = here then exit.port.toNat else p.portToSibling here exit.router.toNat

/-- The port toward a router of this group. -/
def portToRouter (position : Nat) : Nat := s.parameters.portToSibling s.position position

/-- The straight way to an address, with the slot that the source hash gives. It looks at nothing that
changes. -/
def fixedPort (source : Nat) (dest : Address) : Except Fault Nat :=
  if dest.group.toNat = s.group then
    .ok (if dest.router.toNat = s.position then dest.host.toNat else s.portToRouter dest.router.toNat)
  else
    s.portToGroup dest.group.toNat (hashedSlot source dest.group.toNat s.parameters.links) none

/-- The port for a control packet, whatever its traffic class. -/
def controlPort (r : Request) : Except Fault Nat := do
  let dest ← s.parameters.locate r.destination
  s.fixedPort r.source dest

/-- The router and port where a host is attached. -/
def deliveryPort (host : Nat) : Except Fault (Nat × Nat) :=
  if s.parameters.hostCount ≤ host then
    .error (.noSuchHost host s.parameters.hostCount)
  else
    .ok (host / s.parameters.hosts, host % s.parameters.hosts)

/-- The host attached to a port of this router. -/
def hostOf (port : Nat) : Except Fault Nat := do
  match ← s.parameters.classOf port with
  | .host => return Word.wrap (s.index * s.parameters.hosts + port)
  | _ => throw (.notHostPort port s.parameters.hosts)

def portState (port : Nat) : Except Fault PortState := do
  match ← s.parameters.classOf port with
  | .host => return .host
  | .sibling => return .router
  | .exit => return if s.table.isUsed s.position port then .router else .nothing

end Site

end DragonflyFabric
