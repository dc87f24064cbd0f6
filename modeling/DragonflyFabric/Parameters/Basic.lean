import DragonflyFabric.Word

/-!
The five counts that fix the shape of a dragonfly, and the numbering of its ports, routers and hosts.

A router has ports to its hosts, then one to each sibling in its group, then the global ones. Routers are
numbered group by group and hosts router by router.

The products that count hosts and links are words. Ports and routers are counted as if they could not be
more than words; what is stated of them says so of the counts.
-/

namespace DragonflyFabric

structure Parameters where
  /-- Hosts on each router. -/
  hosts : Nat
  /-- Routers in each group, every two of them joined. -/
  routers : Nat
  /-- Global ports on each router. -/
  exits : Nat
  /-- Groups. -/
  groups : Nat
  /-- Parallel links between each two groups. -/
  links : Nat
  deriving DecidableEq, Inhabited

inductive PortClass
  | host | sibling | exit
  deriving DecidableEq

/-- The name under which a class of ports is reported. -/
def PortClass.name : PortClass → String
  | host => "host"
  | sibling => "group"
  | exit => "global"

namespace Parameters

variable (p : Parameters)

/-- The number of ports of a router. -/
def radix : Nat := p.hosts + p.routers - 1 + p.exits

def routerCount : Nat := p.routers * p.groups

def hostCount : Nat := Word.wrap (p.hosts * p.routers * p.groups)

/-- Every group sees the others as rows of its exit table. -/
def rows : Nat := p.groups - 1

/-- The number of global links that leave a group. -/
def linkCount : Nat := Word.wrap (p.rows * p.links)

/-- The first sibling port, where the host ports end. -/
def firstSibling : Nat := p.hosts

/-- The first global port, where the sibling ports end. -/
def firstExit : Nat := p.hosts + p.routers - 1

/-- The end of the global ports. -/
def portEnd : Nat := p.firstExit + p.exits

/-- The port number of a global port counted from the first one. -/
def exitPort (index : Nat) : Nat := p.firstExit + index

/-- The class of a port, for the ports the router has. -/
def classOf? (port : Nat) : Option PortClass :=
  if port < p.firstSibling then some .host
  else if port < p.firstExit then some .sibling
  else if p.firstExit ≤ port ∧ port < p.portEnd then some .exit
  else none

/-- The group of a router. -/
def groupOf (router : Nat) : Nat := router / p.routers

/-- The position of a router in its group. -/
def positionOf (router : Nat) : Nat := router % p.routers

/-- The router at a position of a group. -/
def routerAt (group position : Nat) : Nat := group * p.routers + position

/-- The number of a host, counted through the routers of all groups. -/
def hostAt (group position host : Nat) : Nat :=
  Word.wrap ((group * p.routers + position) * p.hosts + host)

/-- The port of the router at `position` that leads to its sibling at `other`, which is another. -/
def portToSibling (position other : Nat) : Nat :=
  if position < other then p.hosts + other - 1 else p.hosts + other

/-- The position of the sibling behind a sibling port. -/
def siblingBehind (position port : Nat) : Nat :=
  let offset := port - p.hosts
  if position ≤ offset then offset + 1 else offset

/-- The group of a router, where groups have routers. -/
def groupOf? (router : Nat) : Option Nat := if p.routers = 0 then none else some (p.groupOf router)

/-- The position of a router, where groups have routers. -/
def positionOf? (router : Nat) : Option Nat :=
  if p.routers = 0 then none else some (p.positionOf router)

end Parameters

end DragonflyFabric
