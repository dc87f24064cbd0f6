import DragonflyFabric.Fault

/-!
Counts, ports and hosts that are checked before use. Reading a host number as an address and reading an
address as a host number are inverse to each other, as long as its parts fit in thirty-two bits.
-/

namespace DragonflyFabric.Parameters

variable (p : Parameters)

/-- Counts that describe a network: none but the global ports may be missing, and the global ports of a
group are enough for its links. -/
def check : Except Fault Parameters :=
  if p.hosts = 0 ∨ p.routers = 0 ∨ p.groups = 0 ∨ p.links = 0 then
    .error (.parameters (.zeroCount p))
  else if Word.wrap (p.routers * p.exits) < p.linkCount then
    .error (.parameters (.tooFewExits p))
  else
    .ok p

/-- The ports of a router are those of the three classes together. -/
def checkRadix (radix : Nat) : Except Fault Unit :=
  if radix = p.radix then .ok () else .error (.parameters (.radix radix p))

def classOf (port : Nat) : Except Fault PortClass :=
  match p.classOf? port with
  | some c => .ok c
  | none => .error (.noSuchPort port p.radix)

/-- The address of a host, heading straight for its group. -/
def locate (host : Nat) : Except Fault Address :=
  if p.hostCount ≤ host then
    .error (.noSuchHost host p.hostCount)
  else
    .ok (.ofParts (host / Word.wrap (p.hosts * p.routers)) (host / p.hosts % p.routers) (host % p.hosts))

/-- The number of the host at a place. -/
def hostNumber (group position host : Nat) : Except Fault Nat :=
  if group < p.groups ∧ position < p.routers ∧ host < p.hosts then
    .ok (p.hostAt group position host)
  else
    .error (.noHostAt group position host (p.hostAt group position host) p.hostCount)

end DragonflyFabric.Parameters
