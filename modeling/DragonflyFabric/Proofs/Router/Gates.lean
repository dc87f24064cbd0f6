import DragonflyFabric.Proofs.Router.Service

/-!
# The port toward another group

The way from a router to another group by one of the parallel links goes through the gate of the link: the
router of its group that has the exit. There the packet leaves by the exit, to the gate of the other group;
from any other router of the group it goes to the gate.

* `portToGroup_eq`: the port that a router in service takes is `portToward`.
* `link_portToward`: that port leads to `nextToward`.
-/

namespace DragonflyFabric

namespace Installation

variable {n : Installation} {index group slot channel : Nat} {r : Router}

/-- A way to another group: from a router, to a group that is not its own, by a parallel link. -/
structure Ahead (n : Installation) (index group slot : Nat) : Prop where
  index_lt : index < n.parameters.routerCount
  group_lt : group < n.parameters.groups
  ne : n.parameters.groupOf index ≠ group
  slot_lt : slot < n.parameters.links

/-- Whether the router has the exit itself. -/
def isGate (n : Installation) (index group slot : Nat) : Bool :=
  index = n.gate (n.parameters.groupOf index) group slot

theorem isGate_iff_eq {index group slot : Nat} :
    n.isGate index group slot = true ↔ index = n.gate (n.parameters.groupOf index) group slot := by
  rw [isGate, decide_eq_true_iff]

/-- The port of a router toward another group by a parallel link. -/
def portToward (n : Installation) (index group slot : Nat) : Nat :=
  let e := n.exitTo (n.parameters.groupOf index) group slot
  if n.isGate index group slot then e.port.toNat
  else n.parameters.portToSibling (n.parameters.positionOf index) e.router.toNat

/-- The router that the way leads to next. -/
def nextToward (n : Installation) (index group slot : Nat) : Nat :=
  let here := n.parameters.groupOf index
  if n.isGate index group slot then n.gate group here slot else n.gate here group slot

/-- The class of the wire to that router. -/
def wireToward (n : Installation) (index group slot : Nat) : Nat :=
  if n.isGate index group slot then Link.globalKind else Link.localKind

/-- The channel on that wire. -/
def channelToward (n : Installation) (index group slot channel : Nat) : Nat :=
  if n.isGate index group slot then channel + 1 else channel

namespace Ahead

variable (h : n.Ahead index group slot)

include h

theorem here_lt : n.parameters.groupOf index < n.parameters.groups := Parameters.groupOf_lt h.index_lt

theorem serves :
    n.Serves (n.numbering.rowOf (n.parameters.groupOf index) group n.parameters.groups) slot
      (n.exitTo (n.parameters.groupOf index) group slot) :=
  n.serves_exitTo h.here_lt h.group_lt h.ne h.slot_lt

/-- The gate is recognized by its position. -/
theorem isGate_iff :
    n.isGate index group slot = true ↔
      (n.exitTo (n.parameters.groupOf index) group slot).router.toNat = n.parameters.positionOf index := by
  rw [isGate, decide_eq_true_iff]
  constructor
  · intro heq
    conv_rhs => rw [heq]
    exact (n.positionOf_gate h.here_lt h.group_lt h.ne h.slot_lt).symm
  · intro heq
    rw [gate, heq, Parameters.routerAt_groupOf_positionOf]

theorem portToGroup_eq (hr : r.InService n index) :
    r.site.portToGroup group slot none = .ok (n.portToward index group slot) := by
  have hrange : ¬(group = r.site.group ∨ r.site.parameters.groups ≤ group) := by
    rw [hr.group_eq, hr.parameters_eq]
    rintro (heq | hle)
    · exact h.ne heq.symm
    · exact absurd h.group_lt (Nat.not_lt.mpr hle)
  have hhere : ¬n.parameters.routers ≤ n.parameters.positionOf index :=
    Nat.not_le.mpr (Parameters.positionOf_lt n.checked.routers_pos _)
  rw [Site.portToGroup]
  dsimp only
  rw [if_neg hrange, hr.group_eq, hr.parameters_eq, hr.numbering_eq, hr.table_eq, hr.position_eq,
    h.serves.lookup_eq]
  show (if n.parameters.routers ≤ n.parameters.positionOf index then _ else _) = _
  rw [if_neg hhere, Option.getD_none, portToward]
  by_cases hgate : n.isGate index group slot = true
  · rw [if_pos hgate, if_pos (h.isGate_iff.mp hgate)]
    rfl
  · rw [if_neg hgate, if_neg (mt h.isGate_iff.mpr hgate)]
    rfl

theorem classOf?_portToward :
    n.parameters.classOf? (n.portToward index group slot) =
      some (if n.isGate index group slot then .exit else .sibling) := by
  rw [portToward]
  split
  · exact h.serves.class_eq
  · next hgate =>
    exact Parameters.classOf?_portToSibling (fun heq => hgate (h.isGate_iff.mpr heq.symm))
      (Parameters.positionOf_lt n.checked.routers_pos _) h.serves.router_lt

theorem channelBehind_eq (hr : r.InService n index) (channel : Nat) :
    r.site.channelBehind (n.portToward index group slot) channel = n.channelToward index group slot channel := by
  rw [Site.channelBehind, hr.parameters_eq, h.classOf?_portToward, channelToward]
  by_cases hgate : n.isGate index group slot = true
  · rw [if_pos hgate, if_pos rfl, if_pos hgate]
  · rw [if_neg hgate, if_neg hgate, if_neg]
    intro heq
    cases heq

/-- The exit of a gate leads to a gate of the other group, which is one toward this group. -/
theorem link_of_isGate (hgate : n.isGate index group slot = true) :
    n.fabric.link index (n.exitTo (n.parameters.groupOf index) group slot).port.toNat =
        ⟨.router (n.gate group (n.parameters.groupOf index) slot)
          (n.exitTo group (n.parameters.groupOf index) slot).port.toNat, Link.globalKind⟩ ∧
      n.Ahead (n.gate group (n.parameters.groupOf index) slot) (n.parameters.groupOf index) slot ∧
      n.isGate (n.gate group (n.parameters.groupOf index) slot) (n.parameters.groupOf index) slot = true := by
  have hgroup := n.groupOf_gate h.group_lt h.here_lt h.ne.symm h.slot_lt
  have hlink := n.link_gate h.here_lt h.group_lt h.ne h.slot_lt
  rw [← isGate_iff_eq.mp hgate] at hlink
  refine ⟨hlink, ⟨n.gate_lt h.group_lt h.here_lt h.ne.symm h.slot_lt, h.here_lt, ?_, h.slot_lt⟩, ?_⟩
  · rw [hgroup]
    exact h.ne.symm
  · rw [isGate_iff_eq, hgroup]

/-- **The port toward a group leads to the gate, and from the gate into the other group.** -/
theorem link_portToward :
    ∃ nextPort, n.fabric.link index (n.portToward index group slot) =
      ⟨.router (n.nextToward index group slot) nextPort, n.wireToward index group slot⟩ := by
  rw [portToward, nextToward, wireToward]
  by_cases hgate : n.isGate index group slot = true
  · rw [if_pos hgate, if_pos hgate, if_pos hgate]
    exact ⟨_, (h.link_of_isGate hgate).1⟩
  · rw [if_neg hgate, if_neg hgate, if_neg hgate]
    have hne : n.parameters.positionOf index ≠ (n.exitTo (n.parameters.groupOf index) group slot).router.toNat :=
      fun heq => hgate (h.isGate_iff.mpr heq.symm)
    exact ⟨_, n.link_portToSibling hne h.serves.router_lt⟩

theorem groupOf_nextToward :
    n.parameters.groupOf (n.nextToward index group slot) =
      if n.isGate index group slot then group else n.parameters.groupOf index := by
  rw [nextToward]
  split
  · exact n.groupOf_gate h.group_lt h.here_lt h.ne.symm h.slot_lt
  · exact n.groupOf_gate h.here_lt h.group_lt h.ne h.slot_lt

theorem nextToward_lt : n.nextToward index group slot < n.parameters.routerCount := by
  rw [nextToward]
  split
  · exact n.gate_lt h.group_lt h.here_lt h.ne.symm h.slot_lt
  · exact n.gate_lt h.here_lt h.group_lt h.ne h.slot_lt

/-- **Next to a router that is no gate there is one**, on the same way. -/
theorem next (hgate : n.isGate index group slot = false) :
    n.Ahead (n.nextToward index group slot) group slot ∧
      n.isGate (n.nextToward index group slot) group slot = true := by
  have hgroup := h.groupOf_nextToward
  rw [if_neg (by rw [hgate]; exact Bool.false_ne_true)] at hgroup
  refine ⟨⟨h.nextToward_lt, h.group_lt, by rw [hgroup]; exact h.ne, h.slot_lt⟩, ?_⟩
  rw [isGate, hgroup, decide_eq_true_iff, nextToward, if_neg (by rw [hgate]; exact Bool.false_ne_true)]

end Ahead

/-- Where there is a port toward another group, there is a way to it. -/
theorem Ahead.of_portToGroup {port : Nat} (hr : r.InService n index)
    (h : r.site.portToGroup group slot none = .ok port) :
    n.Ahead index group slot ∧ port = n.portToward index group slot := by
  have hahead : n.Ahead index group slot := by
    rw [Site.portToGroup] at h
    dsimp only at h
    split at h
    · cases h
    next hrange =>
      rw [hr.group_eq, hr.parameters_eq] at hrange
      push Not at hrange
      obtain ⟨exit, hlookup, -⟩ := ok_of_bind_ok h
      have hslot := (ExitTable.View.lt_of_lookup hlookup).2
      rw [hr.table_eq, (ExitTable.View.size_of_ofLinkMap n.table_eq).2] at hslot
      exact ⟨hr.index_lt, hrange.2, hrange.1.symm, hslot⟩
  rw [hahead.portToGroup_eq hr] at h
  exact ⟨hahead, (Except.ok.inj h).symm⟩

/-- A global port toward a group leads there. -/
theorem Ahead.groupOf_next_of_exit {next nextPort : Nat} (h : n.Ahead index group slot)
    (hclass : n.parameters.classOf? (n.portToward index group slot) = some .exit)
    (hpeer : (n.fabric.link index (n.portToward index group slot)).peer = .router next nextPort) :
    n.parameters.groupOf next = group := by
  obtain ⟨_, hlink⟩ := h.link_portToward
  rw [hlink] at hpeer
  cases hpeer
  rw [h.classOf?_portToward] at hclass
  rw [h.groupOf_nextToward, if_pos]
  by_contra hgate
  rw [if_neg hgate] at hclass
  cases hclass

end Installation

end DragonflyFabric
