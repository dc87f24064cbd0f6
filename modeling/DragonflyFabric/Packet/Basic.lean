import DragonflyFabric.Parameters.Basic

/-!
What hosts ask for, and what travels from router to router: the request, the address of the destination
host and the decisions taken so far.

Addresses hold thirty-two bits in each part and slots sixteen, as on the wire.
-/

namespace DragonflyFabric

/-- Where a packet goes. `target` is the group it is heading for now, which differs from `group` only on
the way to an intermediate group; `alternate` is the intermediate group drawn for it. -/
structure Address where
  group : UInt32
  target : UInt32
  alternate : UInt32
  router : UInt32
  host : UInt32
  deriving DecidableEq, Inhabited

namespace Address

/-- The address of what every host is to receive. -/
def everyone : Address := ⟨0xffffffff, 0xffffffff, 0xffffffff, 0xffffffff, 0xffffffff⟩

def isEveryone (a : Address) : Bool := a.group = 0xffffffff

/-- The address of a host in its own group, each part cut to thirty-two bits. -/
def ofParts (group position host : Nat) : Address :=
  let g := UInt32.ofNat group
  ⟨g, g, g, UInt32.ofNat position, UInt32.ofNat host⟩

end Address

/-- The destination that stands for every host. -/
def broadcastDestination : Nat := 0xffffffffffffffff

/-- What a host asks its router to send. -/
structure Request where
  source : Nat
  destination : Nat
  /-- The traffic class, by its index. -/
  network : Nat
  bits : Nat
  deriving DecidableEq, Inhabited

/-- A request on its way. -/
structure Packet where
  request : Request
  /-- The virtual channel the packet is in. -/
  channel : Nat
  /-- The group it was injected in. -/
  origin : UInt32
  dest : Address
  /-- The parallel link to take to `dest.target`. -/
  slot : UInt16
  /-- The parallel link of the other choice: toward `dest.alternate` while the packet may still turn
  there, and that of the minimal path once it did. -/
  otherSlot : UInt16
  deriving DecidableEq, Inhabited

end DragonflyFabric
