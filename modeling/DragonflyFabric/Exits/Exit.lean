/-!
The router of a group that owns a global link, and the port it has it on.
-/

namespace DragonflyFabric

/-- A position in the group and a global port, sixteen bits each. -/
structure Exit where
  router : UInt16
  port : UInt16
  deriving DecidableEq, Inhabited

namespace Exit

/-- The exit at a position and a port, both cut to sixteen bits. -/
def ofPlace (position port : Nat) : Exit := ⟨UInt16.ofNat position, UInt16.ofNat port⟩

def describe (e : Exit) : String :=
  s!"RouterPortPair \x7b router: {e.router}, port: {e.port} \x7d"

end Exit

end DragonflyFabric
