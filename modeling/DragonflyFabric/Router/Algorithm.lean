/-!
The routing algorithms and the ways of choosing among parallel links.
-/

namespace DragonflyFabric

inductive Algorithm
  /-- Straight to the destination group. -/
  | minimal
  /-- To some other group first, and from there to the destination group. -/
  | valiant
  /-- Straight, or through another group when the straight way is much more congested at the source. -/
  | adaptive
  deriving DecidableEq, Inhabited

namespace Algorithm

def name : Algorithm → String
  | minimal => "minimal"
  | valiant => "valiant"
  | adaptive => "adaptive-local"

def ofName? (s : String) : Option Algorithm :=
  if s = "minimal" then some minimal
  else if s = "valiant" then some valiant
  else if s = "adaptive-local" ∨ s = "adaptive_local" then some adaptive
  else none

/-- The algorithm an object without fields names. -/
def ofObjectName? (s : String) : Option Algorithm :=
  if s = "Minimal" then some minimal
  else if s = "Valiant" then some valiant
  else if s = "AdaptiveLocal" then some adaptive
  else none

/-- The virtual channels a packet needs: one more than the global links it may cross. -/
def channels : Algorithm → Nat
  | minimal => 2
  | valiant => 3
  | adaptive => 3

end Algorithm

/-- Which of the parallel links between two groups a packet takes. -/
inductive SlotPolicy
  /-- Always the same one. -/
  | fixed (slot : Nat)
  /-- Each in turn, with a counter for each target group. -/
  | roundRobin
  /-- One that depends on the source host and the target group alone. -/
  | sourceHash
  /-- Any of them, with equal chances. -/
  | random
  deriving DecidableEq, Inhabited

/-- Mixes a source host and a target group into sixty-four bits. Every step can be undone. -/
def sourceHash (source group : UInt64) : UInt64 :=
  let x := source ^^^ (group <<< 32)
  let x := x ^^^ (x >>> 33)
  let x := x * 0xff51afd7ed558ccd
  let x := x ^^^ (x >>> 33)
  let x := x * 0xc4ceb9fe1a85ec53
  x ^^^ (x >>> 33)

/-- The slot of a flow: its hash, reduced to the number of links. -/
def hashedSlot (source group links : Nat) : Nat :=
  (sourceHash (UInt64.ofNat source) (UInt64.ofNat group)).toNat % links

end DragonflyFabric
