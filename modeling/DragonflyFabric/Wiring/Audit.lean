import DragonflyFabric.Fault
import DragonflyFabric.Wiring.Basic

/-!
Checks that every wire leads back: from what a port leads to, back to that port, by a wire of the same
class. Ports that lead nowhere only cause a warning.
-/

namespace DragonflyFabric.Wiring

/-- Where the wire behind a port comes back to; nothing when the port is not connected. -/
def back (w : Wiring) : Peer → Except Fault (Option Link)
  | .router index port => (w.link? index port).elim (.error .abort) (.ok ∘ some)
  | .server index => (w.serverLink? index).elim (.error .abort) (.ok ∘ some)
  | .nothing => .ok none

/-- The class of a wire is below the bound if there is one. -/
def checkKind (bound : Option Nat) (router port : Nat) (link : Link) : Except Fault Unit :=
  match bound with
  | some limit =>
    if limit ≤ link.kind then .error (.wiring (.kindOutOfBound link.kind limit port router)) else .ok ()
  | none => .ok ()

/-- The wire behind a port comes back to it, by a wire of the same class. The answer tells whether the port
is connected. -/
def checkReturn (router port : Nat) (link : Link) : Option Link → Except Fault Bool
  | none => .ok false
  | some reverse =>
    if reverse.peer ≠ .router router port then
      .error (.wiring (.noReturn router port link.peer reverse.peer))
    else if link.kind ≠ reverse.kind then
      .error (.wiring (.kindsDiffer port router link.kind reverse.kind))
    else
      .ok true

/-- Checks one port. The answer tells whether it is connected. -/
def auditPort (w : Wiring) (bound : Option Nat) (router port : Nat) : Except Fault Bool := do
  let some link := w.link? router port | throw .abort
  checkKind bound router port link
  let reverse ← w.back link.peer
  checkReturn router port link reverse

/-- The ports of all routers, router by router. -/
def places (w : Wiring) : List (Nat × Nat) :=
  (List.range w.routerCount).flatMap fun router => (List.range (w.ports router)).map (router, ·)

/-- Checks every port, and that the classes of wires are below a bound if one is given. -/
def audit (w : Wiring) (bound : Option Nat) : Report Unit :=
  w.places.forM fun (router, port) => do
    let connected ← liftM (w.auditPort bound router port)
    if !connected then
      Report.warn (.disconnected port router)

end DragonflyFabric.Wiring
