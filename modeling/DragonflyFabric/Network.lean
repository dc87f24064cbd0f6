import DragonflyFabric.Router.Announce
import DragonflyFabric.Router.Forward

/-!
A network of routers over one exit table, and packets followed through it: one packet from its source
host to where it ends, or all copies of what is sent to every host.
-/

namespace DragonflyFabric

structure Network where
  settings : Settings
  table : ExitTable.View
  /-- The wires; without them packets cannot be followed. -/
  fabric : Option Fabric
  routers : Array Router

/-- One step of a packet: the router, the group it was heading for when it came there, and how it left. -/
structure Hop where
  router : Nat
  target : UInt32
  egress : Egress
  deriving DecidableEq

/-- How following a packet ends. -/
inductive WalkEnd
  | delivered (server : Nat)
  | unconnected
  | limit
  | failed (why : Fault)

/-- A packet followed to its end: its hops, the end, and the packet and the network afterwards. -/
structure Walk where
  hops : List Hop
  ending : WalkEnd
  packet : Packet
  network : Network

/-- The copies of what is sent to every host: the routers and ports they arrived at, in order, the
servers that received one, once for each copy, and how many were sent to unconnected ports. -/
structure Flood where
  visits : List (Nat × Nat)
  received : List Nat
  lost : Nat

namespace Network

/-- The network of some settings, each router having `spare` virtual channels more than its classes need. -/
def build (settings : Settings) (wired : Bool) (spare : Nat) : Report Network := do
  let table ← liftM settings.table
  let fabric ← if wired then some <$> settings.fabric table else pure none
  let plan ← liftM settings.plan
  let p := settings.parameters
  let install (index : Nat) : Except Fault Router :=
    Router.install settings table index p.radix (plan.total + spare)
  let routers ← liftM ((List.range p.routerCount).mapM install)
  return ⟨settings, table, fabric, routers.toArray⟩

variable (n : Network)

def router (index : Nat) : Except Fault Router := (n.routers[index]?.map .ok).getD (.error .abort)

def setRouter (index : Nat) (r : Router) : Network :=
  { n with routers := n.routers.setIfInBounds index r }

/-- What a port of a router leads to. -/
def peer (router port : Nat) : Except Fault Peer :=
  match n.fabric with
  | some f => .ok (f.link router port).peer
  | none => .error .abort

/-- Handles a packet at a router: the result, the packet, and the network with the router changed. -/
def handle {α : Type} (index : Nat) (k : Packet) (h : Handling α) : Except Fault (Except Fault α × Packet × Network) := do
  let r ← n.router index
  let (result, t) := h.run ⟨r, k⟩
  return (result, t.packet, n.setRouter index t.router)

/-- Follows a packet from a router, for a number of hops at most. -/
def walkFrom : Nat → Network → Nat → Packet → Except Fault Walk
  | 0, n, _, k => .ok ⟨[], .limit, k, n⟩
  | hops + 1, n, index, k => do
    let (result, k', n') ← n.handle index k (Transit.forwardSeen k.channel)
    match result with
    | .error why => return ⟨[], .failed why, k', n'⟩
    | .ok egress =>
      let hop : Hop := ⟨index, k.dest.target, egress⟩
      match ← n'.peer index egress.port with
      | .server server => return ⟨[hop], .delivered server, k', n'⟩
      | .nothing => return ⟨[hop], .unconnected, k', n'⟩
      | .router next _ =>
        let walk ← walkFrom hops n' next k'
        return { walk with hops := hop :: walk.hops }

/-- Follows a packet from the router of its source host. -/
def walk (k : Packet) : Except Fault Walk :=
  walkFrom 12 n (k.request.source / n.settings.parameters.hosts) k

/-- What the ports that a copy leaves by lead to: routers with the port the copy arrives at there,
servers, and the number of unconnected ports. -/
def spread (index : Nat) (ports : List Nat) : Except Fault (List (Nat × Nat) × List Nat × Nat) := do
  let peers ← ports.mapM (n.peer index)
  let routers := peers.filterMap fun
    | .router next port => some (next, port)
    | _ => none
  let servers := peers.filterMap fun
    | .server server => some server
    | _ => none
  return (routers, servers, peers.count .nothing)

/-- Handles the copy that was sent last, until none is in flight, for a number of copies at most. -/
def floodFrom (k : Packet) : Nat → List (Nat × Nat) → Flood → Except Fault Flood
  | 0, _, f => .ok f
  | _, [], f => .ok f
  | copies + 1, (index, portIn) :: flying, f => do
    let r ← n.router index
    let ports ← r.site.announcePorts portIn k
    let (routers, servers, lost) ← n.spread index ports
    floodFrom k copies (routers.reverse ++ flying)
      ⟨f.visits ++ [(index, portIn)], f.received ++ servers, f.lost + lost⟩

/-- Lets the copies of a packet spread from the port of a router. -/
def flood (k : Packet) (index portIn : Nat) : Except Fault Flood :=
  n.floodFrom k 2000 [(index, portIn)] ⟨[], [], 0⟩

end Network

/-- How often each number occurs in a list, in increasing order. -/
def tally (numbers : List Nat) : List (Nat × Nat) :=
  (numbers.mergeSort (· ≤ ·)).splitBy (· == ·) |>.filterMap fun run =>
    run.head?.map fun number => (number, run.length)

end DragonflyFabric
