/-!
What is at the other side of a port.
-/

namespace DragonflyFabric

inductive Peer
  /-- A port of a router. -/
  | router (index port : Nat)
  | server (index : Nat)
  /-- The port is not connected. -/
  | nothing
  deriving DecidableEq, Inhabited

/-- What a port leads to, and the class of the wire. -/
structure Link where
  peer : Peer
  kind : Nat
  deriving DecidableEq, Inhabited

/-- The class of the wires inside a group. -/
def Link.localKind : Nat := 0

/-- The class of the wires between groups. -/
def Link.globalKind : Nat := 1

/-- The class of the wires to hosts. -/
def Link.hostKind : Nat := 2

def Peer.describe : Peer → String
  | router index port => s!"RouterPort \x7b router_index: {index}, router_port: {port} \x7d"
  | server index => s!"ServerPort({index})"
  | nothing => "None"

end DragonflyFabric
