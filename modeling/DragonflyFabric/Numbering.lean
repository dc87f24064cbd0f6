import DragonflyFabric.Word

/-!
How a group names the other groups by the rows of its exit table. Both ways number them from zero
without a gap, and each way back is the inverse.
-/

namespace DragonflyFabric

inductive Numbering
  /-- In increasing order, passing over the group itself. -/
  | absolute
  /-- By how many groups further around the ring, less one. -/
  | relative
  deriving DecidableEq, Inhabited

namespace Numbering

def name : Numbering → String
  | absolute => "absolute"
  | relative => "relative"

def ofName? (s : String) : Option Numbering :=
  if s = "absolute" then some absolute
  else if s = "relative" then some relative
  else none

/-- The row under which group `current` knows `other`, which is another group. -/
def rowOf (n : Numbering) (current other groups : Nat) : Nat :=
  match n with
  | absolute => if current < other then other - 1 else other
  | relative => Word.sub (Word.sub (Word.wrap (other + groups)) current % groups) 1

/-- The group that `current` knows under a row. -/
def groupAt (n : Numbering) (current row groups : Nat) : Nat :=
  match n with
  | absolute => if current ≤ row then row + 1 else row
  | relative => Word.wrap (current + row + 1) % groups

/-- Around a ring there has to be some group; numbers in increasing order need none. -/
def rowOf? (n : Numbering) (current other groups : Nat) : Option Nat :=
  if n = relative ∧ groups = 0 then none else some (n.rowOf current other groups)

def groupAt? (n : Numbering) (current row groups : Nat) : Option Nat :=
  if n = relative ∧ groups = 0 then none else some (n.groupAt current row groups)

end Numbering

end DragonflyFabric
