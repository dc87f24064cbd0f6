import DragonflyFabric.Numbering
import DragonflyFabric.Proofs.Words

/-!
# Rows name the other groups

From every group the rows below `groups - 1` and the other groups correspond one to one, in either
numbering: `groupAt_rowOf` and `rowOf_groupAt` are the two ways back. Around a ring two numbers of groups are added
before a turn is taken off again, and their sum has to be a word.
-/

namespace DragonflyFabric.Numbering

variable {groups current other row : Nat} {n : Numbering}

/-- The sums by which so many groups are numbered are words. -/
def InWords (n : Numbering) (groups : Nat) : Prop := n = relative → groups ≤ 2 ^ 63

/-- In increasing order nothing is added but one. -/
theorem inWords_absolute : absolute.InWords groups := by
  rintro ⟨⟩

/-- Around a ring, the way from a group to another. -/
theorem ring_distance (hc : current < groups) (ho : other < groups) (hne : current ≠ other) :
    (other + groups - current) % groups =
      if current < other then other - current else other + groups - current := by
  split
  · next hlt =>
    have he : other + groups - current = other - current + groups := by omega
    rw [he, Nat.add_mod_right, Nat.mod_eq_of_lt (by omega)]
  · next hge => exact Nat.mod_eq_of_lt (by omega)

/-- Around a ring, where a number of steps leads. -/
theorem ring_step (hc : current < groups) (hr : row < groups - 1) :
    (current + row + 1) % groups =
      if current + row + 1 < groups then current + row + 1 else current + row + 1 - groups := by
  split
  · next hlt => exact Nat.mod_eq_of_lt hlt
  · next hge => rw [Nat.mod_eq_sub_mod (by omega), Nat.mod_eq_of_lt (by omega)]

theorem rowOf_relative (hw : relative.InWords groups) (hc : current < groups) (ho : other < groups)
    (hne : current ≠ other) : relative.rowOf current other groups =
      (if current < other then other - current else other + groups - current) - 1 := by
  have hgroups := hw rfl
  have hturn : Word.sub (other + groups) current = other + groups - current := Word.sub_of_le (by omega) (by omega)
  rw [rowOf, Word.wrap_of_lt (by omega), hturn, ring_distance hc ho hne]
  exact Word.sub_of_le (by split <;> omega) (by split <;> omega)

theorem groupAt_relative (hw : relative.InWords groups) (hc : current < groups) (hr : row < groups - 1) :
    relative.groupAt current row groups =
      if current + row + 1 < groups then current + row + 1 else current + row + 1 - groups := by
  have hgroups := hw rfl
  rw [groupAt, Word.wrap_of_lt (by omega), ring_step hc hr]

variable (hw : n.InWords groups)

include hw

theorem rowOf_lt (hc : current < groups) (ho : other < groups) (hne : current ≠ other) :
    n.rowOf current other groups < groups - 1 := by
  cases n with
  | absolute => simp only [rowOf]; split <;> omega
  | relative =>
    rw [rowOf_relative hw hc ho hne]
    split <;> omega

theorem groupAt_lt (hc : current < groups) (hr : row < groups - 1) : n.groupAt current row groups < groups := by
  cases n with
  | absolute => simp only [groupAt]; split <;> omega
  | relative =>
    rw [groupAt_relative hw hc hr]
    split <;> omega

theorem groupAt_ne (hc : current < groups) (hr : row < groups - 1) : n.groupAt current row groups ≠ current := by
  cases n with
  | absolute => simp only [groupAt]; split <;> omega
  | relative =>
    rw [groupAt_relative hw hc hr]
    split <;> omega

/-- The row of a group leads to it. -/
theorem groupAt_rowOf (hc : current < groups) (ho : other < groups) (hne : current ≠ other) :
    n.groupAt current (n.rowOf current other groups) groups = other := by
  have hr := rowOf_lt hw hc ho hne
  cases n with
  | absolute => simp only [rowOf, groupAt]; split <;> split <;> omega
  | relative =>
    rw [groupAt_relative hw hc hr, rowOf_relative hw hc ho hne]
    split <;> split <;> omega

/-- A row is the row of the group it leads to. -/
theorem rowOf_groupAt (hc : current < groups) (hr : row < groups - 1) :
    n.rowOf current (n.groupAt current row groups) groups = row := by
  have hne := groupAt_ne hw hc hr
  have ho := groupAt_lt hw hc hr
  cases n with
  | absolute => simp only [rowOf, groupAt]; split <;> split <;> omega
  | relative =>
    rw [rowOf_relative hw hc ho hne.symm, groupAt_relative hw hc hr]
    split <;> split <;> omega

end DragonflyFabric.Numbering
