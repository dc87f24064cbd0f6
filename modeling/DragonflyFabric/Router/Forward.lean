import DragonflyFabric.Router.Inject

/-!
Packets pass a router: the port and channel each leaves by, and the decisions taken on the way.

Each global link takes a packet to the next channel of its traffic class, and packets never leave the
channels of their class.
-/

namespace DragonflyFabric

/-- The port and channel a packet leaves by. -/
structure Egress where
  port : Nat
  channel : Nat
  /-- One while the packet is on its way through an intermediate group, and zero on the straight way. -/
  label : Nat
  deriving DecidableEq

/-- Where a packet is on its path. -/
inductive Stage
  /-- In the group it was injected in, which is not that of its destination. -/
  | atSource
  /-- In a group that is neither. -/
  | between
  /-- In the group of its destination, at another router. -/
  | inDestination
  /-- At the router of its destination. -/
  | arrived
  deriving DecidableEq

namespace Stage

def name : Stage → String
  | atSource => "AtSourceGroup"
  | between => "InIntermediateGroup"
  | inDestination => "InDestinationGroup"
  | arrived => "AtDestinationRouter"

/-- The stage of a packet from group `origin` at a router. -/
def of (group position origin : Nat) (dest : Address) : Stage :=
  if group = dest.group.toNat then
    if position = dest.router.toNat then arrived else inDestination
  else if group = origin then atSource
  else between

end Stage

namespace Site

variable (s : Site)

/-- An address that packets can be sent to: one host of the network, by way of one of its groups. -/
def checkDestination (dest : Address) : Except Fault Unit :=
  let p := s.parameters
  if dest.isEveryone ∨ p.groups ≤ dest.group.toNat ∨ p.routers ≤ dest.router.toNat
      ∨ p.hosts ≤ dest.host.toNat ∨ p.groups ≤ dest.target.toNat then
    .error (.unroutable dest p.hostCount)
  else
    .ok ()

def stage (k : Packet) : Stage := .of s.group s.position k.origin.toNat k.dest

/-- The channel a packet gets when it leaves by a port. -/
def channelBehind (port channel : Nat) : Nat :=
  if s.parameters.classOf? port = some .exit then channel + 1 else channel

/-- The channel by which a port is weighed: the next one in the range of the global ports. -/
def weighedChannel (port channel : Nat) : Nat :=
  if s.parameters.firstExit ≤ port ∧ port < s.parameters.portEnd then channel + 1 else channel

/-- Whether a packet may still turn to its other choice: an adaptive one that heads straight from its
source group and has an intermediate group to go through. -/
def mayTurn (algorithm : Algorithm) (stage : Stage) (k : Packet) : Bool :=
  algorithm = .adaptive && stage = .atSource && k.dest.target = k.dest.group
    && k.dest.alternate ≠ k.dest.group && k.dest.alternate.toNat ≠ s.group

/-- Turns a packet to its other choice when the straight port costs more than the threshold allows. -/
def adapt (c : Congestion) (channel : Nat) (k : Packet) : Except Fault Packet := do
  let straight ← s.portToGroup k.dest.group.toNat k.slot.toNat none
  let around ← s.portToGroup k.dest.alternate.toNat k.otherSlot.toNat none
  let straightCost := c.cost straight (s.weighedChannel straight channel)
  let aroundCost := c.cost around (s.weighedChannel around channel)
  return if s.threshold * aroundCost < straightCost then
    { k with
      dest := { k.dest with target := k.dest.alternate }
      slot := k.otherSlot
      otherSlot := k.slot }
  else k

end Site

namespace Transit

/-- In the group it was sent through, a packet turns toward its destination. -/
def turnHome (t : Transit) : Transit :=
  let k := t.packet
  if t.router.site.group = k.dest.target.toNat then
    takeSlot { t with packet := { k with dest := { k.dest with target := k.dest.group } } } k.dest.group.toNat
  else t

/-- The port for a packet, with the decisions that are due here. -/
def choosePort (algorithm : Algorithm) (stage : Stage) (channel : Nat) (c : Congestion) : Handling Nat := do
  let t ← get
  let s := t.router.site
  match stage with
  | .arrived => return t.packet.dest.host.toNat
  | .inDestination => return s.portToRouter t.packet.dest.router.toNat
  | _ =>
    let t := t.turnHome
    set t
    if s.mayTurn algorithm stage t.packet then
      let k ← liftM (s.adapt c channel t.packet)
      set { t with packet := k }
    let k := (← get).packet
    liftM (s.portToGroup k.dest.target.toNat k.slot.toNat none)

/-- The port and channel for the packet, which is in `channel` now. -/
def forward (channel : Nat) (c : Congestion) : Handling Egress := do
  let t ← get
  let s := t.router.site
  let (_, traffic) ← liftM (s.plan.classOf channel)
  liftM (s.checkDestination t.packet.dest)
  let stage := s.stage t.packet
  let port ← choosePort traffic.algorithm stage channel c
  discard (liftM (s.parameters.classOf port))
  let next := s.channelBehind port channel
  if !traffic.contains next then
    throw (.outOfChannels traffic.algorithm next traffic.stop)
  modify fun t => { t with packet := { t.packet with channel := next } }
  let k := (← get).packet
  return ⟨port, next, if k.dest.target ≠ k.dest.group ∨ stage = .between then 1 else 0⟩

/-- As `forward`, with what the router sees of its buffers. -/
def forwardSeen (channel : Nat) : Handling Egress := do
  let t ← get
  let c ← liftM t.router.congestion
  forward channel c

end Transit

end DragonflyFabric
