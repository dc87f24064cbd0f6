import DragonflyFabric.Router.Ports

/-!
Packets enter the network: the request of a host becomes a packet with an address, a slot, and an
intermediate group where its algorithm asks for one.
-/

namespace DragonflyFabric

namespace Router

/-- The slot toward a group, by the policy of the router. -/
def chooseSlot (r : Router) (source group : Nat) : UInt16 × Router :=
  let links := r.site.parameters.links
  match r.site.policy with
  | .fixed slot => (UInt16.ofNat slot, r)
  | .roundRobin =>
    match r.counters[group]? with
    | some slot =>
      (UInt16.ofNat slot, { r with counters := r.counters.setIfInBounds group ((slot + 1) % links) })
    | none => (0, r)
  | .sourceHash => (UInt16.ofNat (hashedSlot source group links), r)
  | .random =>
    let (slot, random) := Random.draw links r.random
    (UInt16.ofNat slot, { r with random := random })

/-- The `n`-th group that is neither of two different ones. -/
def passingOver (a b n : Nat) : Nat :=
  let low := min a b
  let high := max a b
  let n := if low ≤ n then n + 1 else n
  if high ≤ n then n + 1 else n

/-- A group that is neither this one nor the destination, each with the same chances; none if there is
no such group. -/
def drawIntermediate (r : Router) (destination : Nat) : Option Nat × Router :=
  let groups := r.site.parameters.groups
  if groups < 3 then (none, r)
  else
    let (n, random) := Random.draw (groups - 2) r.random
    (some (passingOver r.site.group destination n), { r with random := random })

end Router

/-- A packet at a router. -/
structure Transit where
  router : Router
  packet : Packet

/-- Something done to a packet at a router. What was changed before a failure stays changed. -/
abbrev Handling := ExceptT Fault (StateM Transit)

namespace Transit

/-- Chooses the slot toward a group for the packet. -/
def takeSlot (t : Transit) (group : Nat) : Transit :=
  let (slot, router) := t.router.chooseSlot t.packet.request.source group
  { router := router, packet := { t.packet with slot := slot } }

/-- Sends a packet in its source group through another group first. Once done it is not undone. -/
def divert (through : Nat) : Handling Unit := do
  let t ← get
  let k := t.packet
  if through = k.origin.toNat ∨ through = k.dest.group.toNat ∨ t.router.site.parameters.groups ≤ through then
    throw (.parameters (.notIntermediate through k.origin k.dest.group))
  let group := UInt32.ofNat through
  set (takeSlot { t with packet := { k with dest := { k.dest with target := group, alternate := group } } } through)

/-- Prepares the other choice of an adaptive packet, without taking it. -/
def offer (through : Nat) (t : Transit) : Transit :=
  let (slot, router) := t.router.chooseSlot t.packet.request.source through
  { router := router
    packet :=
      { t.packet with
        dest := { t.packet.dest with alternate := UInt32.ofNat through }
        otherSlot := slot } }

/-- The choices for a packet to another group: its slot, and for algorithms that know a way around an
intermediate group. -/
def choose (algorithm : Algorithm) (destination : Nat) : Handling Unit := do
  let t ← modifyGet fun t =>
    let t := t.takeSlot destination
    let t := { t with packet := { t.packet with otherSlot := t.packet.slot } }
    (t, t)
  if algorithm ≠ .minimal then
    let (through, router) := t.router.drawIntermediate destination
    set { t with router := router }
    match through with
    | none => return
    | some through => if algorithm = .valiant then divert through else modify (offer through)

/-- A request that has just become a packet. -/
def enter (router : Router) (request : Request) (channel : Nat) (dest : Address) : Transit :=
  { router := router
    packet :=
      { request := request
        channel := channel
        origin := UInt32.ofNat router.site.group
        dest := dest
        slot := 0
        otherSlot := 0 } }

end Transit

namespace Router

/-- The packet for a request of one of the hosts of a router, and the router afterwards. -/
def inject (r : Router) (request : Request) : Except Fault Packet × Router :=
  let checked : Except Fault (Address × TrafficClass) := do
    let dest ← r.site.parameters.locate request.destination
    let c ← r.site.plan.get request.network
    return (dest, c)
  match checked with
  | .error f => (.error f, r)
  | .ok (dest, c) =>
    let t := Transit.enter r request c.start dest
    let destination := dest.group.toNat
    if destination = r.site.group then (.ok t.packet, r)
    else
      let (result, t) := (Transit.choose c.algorithm destination).run t
      (result.map fun _ => t.packet, t.router)

end Router

end DragonflyFabric
