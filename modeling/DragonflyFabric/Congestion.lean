import DragonflyFabric.Word

/-!
How full the output buffers of a router are.
-/

namespace DragonflyFabric

/-- Credits and queue lengths of all output buffers, port by port and channel by channel. Entries that
are missing count as zero, and so do negative ones. -/
structure Congestion where
  credits : Array Int
  queues : Array Int
  /-- Channels per port. -/
  channels : Nat

namespace Congestion

/-- Every buffer is empty. -/
def idle : Congestion := ⟨#[], #[], 0⟩

/-- Where the entry of a port and a channel stands. -/
def place (c : Congestion) (port channel : Nat) : Nat := Word.wrap (port * c.channels + channel)

def level (array : Array Int) (place : Nat) : Nat := (array.getD place 0).toNat

/-- The cost of sending through a channel of a port: what is queued against what still fits, both
counted from one. -/
def cost (c : Congestion) (port channel : Nat) : Float :=
  let place := c.place port channel
  ((level c.queues place).toFloat + 1.0) / ((level c.credits place).toFloat + 1.0)

end Congestion

end DragonflyFabric
