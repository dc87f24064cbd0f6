import DragonflyFabric.Proofs.Journey.Basic

/-!
# Straight ways

From a router there is a straight way to a host by each of the parallel links: through the gate of the link
into the group of the host, there to its router, and out by its port. It depends on the shape of the network
alone.

* `link_straightPort`: at every router on the way the port leads to the next one.
* `exists_straight`: the way takes four hops at most.
-/

namespace DragonflyFabric.Installation

/-- The port of the straight way to a host. -/
def straightPort (n : Installation) (index host slot : Nat) : Nat :=
  if index = n.home host then host % n.parameters.hosts
  else if n.parameters.groupOf index = n.homeGroup host then
    n.parameters.portToSibling (n.parameters.positionOf index) (n.parameters.positionOf (n.home host))
  else n.portToward index (n.homeGroup host) slot

/-- The router that the straight way leads to next. -/
def straightNext (n : Installation) (index host slot : Nat) : Nat :=
  if n.parameters.groupOf index = n.homeGroup host then n.home host
  else n.nextToward index (n.homeGroup host) slot

/-- The channel of a packet when it leaves by that port. -/
def straightChannel (n : Installation) (index host slot channel : Nat) : Nat :=
  if n.parameters.groupOf index = n.homeGroup host then channel
  else n.channelToward index (n.homeGroup host) slot channel

/-- The straight way to a host from a router: the routers on it, with the ports by which it leaves them. -/
inductive Straight (n : Installation) (host slot : Nat) : Nat → List (Nat × Nat) → Prop
  | arrived : Straight n host slot (n.home host) [(n.home host, host % n.parameters.hosts)]
  | next {index : Nat} {way : List (Nat × Nat)} (away : index ≠ n.home host)
      (rest : Straight n host slot (n.straightNext index host slot) way) :
      Straight n host slot index ((index, n.straightPort index host slot) :: way)

variable {n : Installation} {index host slot : Nat}

theorem straightChannel_add (n : Installation) (index host slot start crossed : Nat) :
    n.straightChannel index host slot (start + crossed) = start + n.straightChannel index host slot crossed := by
  rw [straightChannel, straightChannel, channelToward, channelToward]
  split
  · rfl
  · split <;> rfl

@[simp] theorem straightPort_home (n : Installation) (host slot : Nat) :
    n.straightPort (n.home host) host slot = host % n.parameters.hosts :=
  if_pos rfl

/-- A host is behind its port of its router. -/
theorem link_home (h : n.home host < n.parameters.routerCount) :
    n.fabric.link (n.home host) (host % n.parameters.hosts) = ⟨.server host, Link.hostKind⟩ := by
  rw [n.link_host h (Nat.mod_lt _ n.checked.hosts_pos), home, Nat.div_add_mod']

section Siblings

variable {other : Nat} (hgroup : n.parameters.groupOf index = n.parameters.groupOf other) (hne : index ≠ other)

include hgroup hne

/-- Two routers of a group are told apart by their positions. -/
theorem positionOf_ne : n.parameters.positionOf index ≠ n.parameters.positionOf other := by
  intro heq
  apply hne
  rw [← n.parameters.routerAt_groupOf_positionOf index, hgroup, heq, Parameters.routerAt_groupOf_positionOf]

/-- They are joined, each by the port for the position of the other. -/
theorem link_within :
    n.parameters.classOf? (n.parameters.portToSibling (n.parameters.positionOf index)
        (n.parameters.positionOf other)) = some .sibling ∧
      n.fabric.link index
          (n.parameters.portToSibling (n.parameters.positionOf index) (n.parameters.positionOf other)) =
        ⟨.router other (n.parameters.portToSibling (n.parameters.positionOf other) (n.parameters.positionOf index)),
          Link.localKind⟩ := by
  have hposition := Parameters.positionOf_lt n.checked.routers_pos index
  have hother := Parameters.positionOf_lt n.checked.routers_pos other
  refine ⟨Parameters.classOf?_portToSibling (positionOf_ne hgroup hne) hposition hother, ?_⟩
  rw [n.link_portToSibling (positionOf_ne hgroup hne) hother, hgroup, Parameters.routerAt_groupOf_positionOf]

end Siblings

/-! ### The three kinds of hops -/

/-- In the group of the host the way goes to its router. -/
theorem straight_within (slot : Nat) (hgroup : n.parameters.groupOf index = n.homeGroup host) (hne : index ≠ n.home host) :
    n.straightPort index host slot =
        n.parameters.portToSibling (n.parameters.positionOf index) (n.parameters.positionOf (n.home host)) ∧
      n.straightNext index host slot = n.home host :=
  ⟨by rw [straightPort, if_neg hne, if_pos hgroup], if_pos hgroup⟩

section Away

variable (hahead : n.Ahead index (n.homeGroup host) slot)

include hahead

theorem straight_away :
    n.straightPort index host slot = n.portToward index (n.homeGroup host) slot ∧
      n.straightNext index host slot = n.nextToward index (n.homeGroup host) slot := by
  have hne : index ≠ n.home host := fun heq => hahead.ne (congrArg _ heq)
  exact ⟨by rw [straightPort, if_neg hne, if_neg hahead.ne], if_neg hahead.ne⟩

/-- From another group it goes to the gate. -/
theorem straight_aside (hgate : n.isGate index (n.homeGroup host) slot = false) :
    n.straightPort index host slot =
        n.parameters.portToSibling (n.parameters.positionOf index)
          (n.parameters.positionOf (n.gate (n.parameters.groupOf index) (n.homeGroup host) slot)) ∧
      n.straightNext index host slot = n.gate (n.parameters.groupOf index) (n.homeGroup host) slot := by
  have hno : ¬n.isGate index (n.homeGroup host) slot = true := by rw [hgate]; exact Bool.false_ne_true
  obtain ⟨hport, hnext⟩ := straight_away hahead
  rw [hport, hnext, portToward, nextToward, n.positionOf_gate hahead.here_lt hahead.group_lt hahead.ne hahead.slot_lt]
  exact ⟨if_neg hno, if_neg hno⟩

/-- From the gate it goes to the gate of the group of the host. -/
theorem straight_across (hgate : n.isGate index (n.homeGroup host) slot = true) :
    n.straightPort index host slot = (n.exitTo (n.parameters.groupOf index) (n.homeGroup host) slot).port.toNat ∧
      n.straightNext index host slot = n.gate (n.homeGroup host) (n.parameters.groupOf index) slot := by
  obtain ⟨hport, hnext⟩ := straight_away hahead
  rw [hport, hnext, portToward, nextToward]
  exact ⟨if_pos hgate, if_pos hgate⟩

end Away

section Ways

variable (hi : index < n.parameters.routerCount) (hh : host < n.parameters.hostCount) (hs : slot < n.parameters.links)

include hi hh hs

/-- From another group the straight way goes toward the group of the host. -/
theorem ahead_of_away (haway : n.parameters.groupOf index ≠ n.homeGroup host) :
    n.Ahead index (n.homeGroup host) slot :=
  ⟨hi, Parameters.groupOf_lt (Parameters.div_hosts_lt hh), haway, hs⟩

theorem straightNext_lt : n.straightNext index host slot < n.parameters.routerCount := by
  rw [straightNext]
  split
  · exact Parameters.div_hosts_lt hh
  · next haway => exact (ahead_of_away hi hh hs haway).nextToward_lt

/-- Only by a gate does the straight way leave a group, and then for that of the host. -/
theorem of_straightNext_away (haway : n.parameters.groupOf (n.straightNext index host slot) ≠ n.homeGroup host) :
    n.parameters.groupOf index ≠ n.homeGroup host ∧
      n.parameters.groupOf (n.straightNext index host slot) = n.parameters.groupOf index := by
  by_cases hgroup : n.parameters.groupOf index = n.homeGroup host
  · exact absurd (by rw [straightNext, if_pos hgroup]) haway
  · have hahead := ahead_of_away hi hh hs hgroup
    rw [(straight_away hahead).2, hahead.groupOf_nextToward] at haway ⊢
    split at haway
    · exact absurd rfl haway
    · next hgate => exact ⟨hgroup, if_neg hgate⟩

/-- The class of the port of the straight way. -/
theorem classOf?_straightPort :
    n.parameters.classOf? (n.straightPort index host slot) =
      some (if index = n.home host then .host
        else if n.parameters.groupOf index ≠ n.homeGroup host ∧ n.isGate index (n.homeGroup host) slot = true then
          .exit
        else .sibling) := by
  by_cases hhome : index = n.home host
  · rw [if_pos hhome, hhome, straightPort_home, Parameters.classOf?_host (Nat.mod_lt _ n.checked.hosts_pos)]
  rw [straightPort, if_neg hhome, if_neg hhome]
  by_cases hgroup : n.parameters.groupOf index = n.homeGroup host
  · rw [if_pos hgroup, if_neg (fun h => h.1 hgroup), (link_within hgroup hhome).1]
  · rw [if_neg hgroup, (ahead_of_away hi hh hs hgroup).classOf?_portToward]
    simp only [ne_eq, hgroup, not_false_eq_true, true_and]

/-- **The port of the straight way leads to the next router on it.** -/
theorem link_straightPort (haway : index ≠ n.home host) :
    ∃ nextPort kind, n.fabric.link index (n.straightPort index host slot) =
      ⟨.router (n.straightNext index host slot) nextPort, kind⟩ := by
  rw [straightPort, if_neg haway, straightNext]
  by_cases hgroup : n.parameters.groupOf index = n.homeGroup host
  · rw [if_pos hgroup, if_pos hgroup, (link_within hgroup haway).2]
    exact ⟨_, _, rfl⟩
  · obtain ⟨nextPort, hlink⟩ := (ahead_of_away hi hh hs hgroup).link_portToward
    rw [if_neg hgroup, if_neg hgroup, hlink]
    exact ⟨_, _, rfl⟩

end Ways

theorem exists_straight_of_next {hops : Nat} (haway : index ≠ n.home host)
    (h : ∃ way, way.length ≤ hops ∧ n.Straight host slot (n.straightNext index host slot) way) :
    ∃ way, way.length ≤ hops + 1 ∧ n.Straight host slot index way := by
  obtain ⟨way, hlength, hway⟩ := h
  exact ⟨(index, _) :: way, Nat.succ_le_succ hlength, .next haway hway⟩

/-- In the group of the host there is one hop to its router. -/
theorem exists_straight_within (hgroup : n.parameters.groupOf index = n.homeGroup host) :
    ∃ way, way.length ≤ 2 ∧ n.Straight host slot index way := by
  by_cases hhome : index = n.home host
  · subst hhome
    exact ⟨[_], Nat.le_succ 1, .arrived⟩
  · refine exists_straight_of_next hhome ⟨[(n.home host, host % n.parameters.hosts)], Nat.le_refl 1, ?_⟩
    rw [straightNext, if_pos hgroup]
    exact .arrived

/-- From a gate toward that group one hop leads into it. -/
theorem exists_straight_of_isGate (hahead : n.Ahead index (n.homeGroup host) slot)
    (hgate : n.isGate index (n.homeGroup host) slot = true) :
    ∃ way, way.length ≤ 3 ∧ n.Straight host slot index way := by
  have hnext := hahead.groupOf_nextToward
  rw [if_pos hgate] at hnext
  refine exists_straight_of_next (fun heq => hahead.ne (congrArg _ heq)) ?_
  rw [straightNext, if_neg hahead.ne]
  exact exists_straight_within hnext

/-- **There is a straight way from every router**, of four hops at most. -/
theorem exists_straight (hi : index < n.parameters.routerCount) (hh : host < n.parameters.hostCount)
    (hs : slot < n.parameters.links) : ∃ way, way.length ≤ 4 ∧ n.Straight host slot index way := by
  by_cases hgroup : n.parameters.groupOf index = n.homeGroup host
  · obtain ⟨way, hlength, hway⟩ := exists_straight_within hgroup
    exact ⟨way, Nat.le_trans hlength (by decide), hway⟩
  · have hahead := ahead_of_away hi hh hs hgroup
    cases hgate : n.isGate index (n.homeGroup host) slot with
    | true =>
      obtain ⟨way, hlength, hway⟩ := exists_straight_of_isGate hahead hgate
      exact ⟨way, Nat.le_trans hlength (by decide), hway⟩
    | false =>
      obtain ⟨hnext, hnextGate⟩ := hahead.next hgate
      refine exists_straight_of_next (fun heq => hgroup (congrArg _ heq)) ?_
      rw [straightNext, if_neg hgroup]
      exact exists_straight_of_isGate hnext hnextGate

end DragonflyFabric.Installation
