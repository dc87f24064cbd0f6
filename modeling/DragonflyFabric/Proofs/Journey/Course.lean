import DragonflyFabric.Proofs.Journey.Marks

/-!
# The course of a packet

Which marks a packet leaves, piece by piece: what it does in a group depends only on where it is heading
there, and on what a router decides of it.

* `traces_direct`: a packet that goes straight crosses once and arrives.
* `traces_detour`: one that was sent through an intermediate group crosses twice and arrives.
* `traces_either`: an adaptive one does the former or, from the router it entered at or from the next one,
  the latter.
-/

namespace DragonflyFabric

namespace Installation

/-- The host that an address stands for. -/
def server (n : Installation) (dest : Address) : Nat :=
  n.parameters.hostAt dest.group.toNat dest.router.toNat dest.host.toNat

variable {n : Installation} {met : Nat → Nat → Router} {c : TrafficClass}
  {network index hop server channel : Nat} {k : Packet} {marks : List Mark}

section Pieces

variable (hmet : n.Running met) (hc : n.plan.get network = .ok c) (hk : k.Routable n)
  (hin : c.contains k.channel = true) (hi : index < n.parameters.routerCount)

include hmet hc hk hin hi

/-! ### In the group of the destination -/

/-- At the router of the destination. -/
theorem traces_last (hhere : n.parameters.groupOf index = k.dest.group.toNat)
    (htarget : k.dest.target = k.dest.group)
    (hposition : n.parameters.positionOf index = k.dest.router.toNat) (hop : Nat) :
    n.fabric.Traces met (n.server k.dest) hop index k (Mark.arrival k.dest.group.toNat k.channel false) := by
  have hrun := Transit.forwardSeen_home (t := ⟨met hop index, k⟩) (hmet hop index hi) hk hc hin hhere htarget
  have hport : n.portHome index k.dest = k.dest.host.toNat := if_pos hposition
  have hlink : n.fabric.link index k.dest.host.toNat = ⟨.server (n.server k.dest), Link.hostKind⟩ := by
    rw [Fabric.link_host (by rw [fabric_parameters]; exact hk.host_lt), fabric_parameters, server,
      Parameters.hostAt, ← hhere, ← hposition]
    show _ = (⟨.server (Word.wrap (n.parameters.routerAt _ _ * _ + _)), _⟩ : Link)
    rw [Parameters.routerAt_groupOf_positionOf]
  rw [hport] at hrun
  refine ⟨_, .last hrun (by rw [hlink]), ?_⟩
  rw [List.map_singleton, Mark.arrival, if_neg (by decide), Fabric.mark, Fabric.wire?]
  dsimp only
  rw [hlink, fabric_parameters, hhere, htarget]

/-- **In the group of its destination a packet comes to its host.** -/
theorem traces_arrival (hhere : n.parameters.groupOf index = k.dest.group.toNat)
    (htarget : k.dest.target = k.dest.group) (hop : Nat) :
    n.fabric.Traces met (n.server k.dest) hop index k
      (Mark.arrival k.dest.group.toNat k.channel
        (decide (n.parameters.positionOf index ≠ k.dest.router.toNat))) := by
  by_cases hposition : n.parameters.positionOf index = k.dest.router.toNat
  · rw [decide_eq_false (not_not_intro hposition)]
    exact traces_last hmet hc hk hin hi hhere htarget hposition hop
  rw [decide_eq_true hposition]
  have hrun := Transit.forwardSeen_home (t := ⟨met hop index, k⟩) (hmet hop index hi) hk hc hin hhere htarget
  have hport : n.portHome index k.dest = n.parameters.portToSibling (n.parameters.positionOf index)
      k.dest.router.toNat := if_neg hposition
  have hlink := n.link_portToSibling hposition hk.router_lt
  rw [hhere] at hlink
  have hnext : n.parameters.routerAt k.dest.group.toNat k.dest.router.toNat < n.parameters.routerCount :=
    Parameters.routerAt_lt hk.group_lt hk.router_lt
  obtain ⟨legs, hlegs, hmarks⟩ := traces_last hmet hc hk hin hnext (Parameters.groupOf_routerAt hk.router_lt)
    htarget (Parameters.positionOf_routerAt hk.router_lt) (hop + 1)
  rw [hport] at hrun
  refine ⟨_, .next hrun (by rw [hlink]) hlegs, ?_⟩
  rw [List.map_cons, hmarks, Mark.arrival, Mark.arrival, if_pos rfl, if_neg (by decide), Fabric.mark, Fabric.wire?]
  dsimp only
  rw [hlink, fabric_parameters, hhere, htarget]

end Pieces

/-! ### Decisions on the way -/

/-- The packet that a router decides on, in the state in which it is met. -/
def Decides (met : Nat → Nat → Router) (algorithm : Algorithm) (hop index : Nat) (k k' : Packet) : Prop :=
  ∃ seen, (met hop index).congestion = .ok seen ∧
    Transit.decided ⟨met hop index, k⟩ algorithm k.channel seen = .ok k'

section Decisions

variable (algorithm : Algorithm) (hmet : n.Running met) (hi : index < n.parameters.routerCount)

include hmet hi

theorem decides_settled (haway : n.parameters.groupOf index ≠ k.dest.group.toNat)
    (h : n.parameters.groupOf index ≠ k.dest.target.toNat)
    (hkeep : k.Settled algorithm (n.parameters.groupOf index)) (hop : Nat) :
    Decides met algorithm hop index k k := by
  have hr := hmet hop index hi
  obtain ⟨seen, hseen⟩ := hr.exists_congestion
  exact ⟨seen, hseen, Transit.decided_settled (t := ⟨met hop index, k⟩) hr haway h hkeep⟩

theorem decides_turning (h : n.parameters.groupOf index = k.dest.target.toNat)
    (haway : n.parameters.groupOf index ≠ k.dest.group.toNat)
    (hsource : n.parameters.groupOf index ≠ k.origin.toNat) (hop : Nat) :
    ∃ slot : UInt16, slot.toNat < n.parameters.links ∧
      Decides met algorithm hop index k
        { k with dest := { k.dest with target := k.dest.group }, slot := slot } := by
  have hr := hmet hop index hi
  obtain ⟨seen, hseen⟩ := hr.exists_congestion
  obtain ⟨slot, hslot, hdecided⟩ := Transit.decided_turning (t := ⟨met hop index, k⟩) hr h haway hsource
  exact ⟨slot, hslot, seen, hseen, hdecided⟩

theorem decides_open (hstraight : n.Ahead index k.dest.group.toNat k.slot.toNat)
    (haround : n.Ahead index k.dest.alternate.toNat k.otherSlot.toNat)
    (htarget : k.dest.target = k.dest.group) (hop : Nat) :
    Decides met algorithm hop index k k ∨ Decides met algorithm hop index k k.turned := by
  have hr := hmet hop index hi
  obtain ⟨seen, hseen⟩ := hr.exists_congestion
  rcases Transit.decided_open (t := ⟨met hop index, k⟩) hr hstraight haround htarget with hdecided | hdecided
  · exact .inl ⟨seen, hseen, hdecided⟩
  · exact .inr ⟨seen, hseen, hdecided⟩

end Decisions

/-! ### In other groups -/

section Crossings

variable (server marks) {k' : Packet} (hmet : n.Running met) (hc : n.plan.get network = .ok c) (hk : k.Routable n)
  (hin : c.contains k.channel = true) (hi : index < n.parameters.routerCount)
  (haway : n.parameters.groupOf index ≠ k.dest.group.toNat)
  (hdecides : Decides met c.algorithm hop index k k')
  (horigin : k'.origin = k.origin) (hahead : n.Ahead index k'.dest.target.toNat k'.slot.toNat)

include hmet hc hk hin hi haway hdecides horigin hahead

/-- One hop of a packet in a group that is not that of its destination. -/
theorem traces_step
    (hroom : c.contains (n.channelToward index k'.dest.target.toNat k'.slot.toNat k.channel) = true)
    (rest : n.fabric.Traces met server (hop + 1) (n.nextToward index k'.dest.target.toNat k'.slot.toNat)
      { k' with channel := n.channelToward index k'.dest.target.toNat k'.slot.toNat k.channel } marks) :
    n.fabric.Traces met server hop index k
      (⟨n.parameters.groupOf index, some (n.wireToward index k'.dest.target.toNat k'.slot.toNat),
        n.channelToward index k'.dest.target.toNat k'.slot.toNat k.channel,
        if k'.dest.target ≠ k'.dest.group ∨ n.parameters.groupOf index ≠ k'.origin.toNat then 1 else 0,
        k.dest.target.toNat, k'.dest.target.toNat⟩ :: marks) := by
  obtain ⟨seen, hseen, hdecided⟩ := hdecides
  have hrun := Transit.forwardSeen_away (t := ⟨met hop index, k⟩) (hmet hop index hi) hk hc hin haway hseen
    hdecided hahead hroom
  obtain ⟨nextPort, hlink⟩ := hahead.link_portToward
  obtain ⟨legs, hlegs, hmarks⟩ := rest
  refine ⟨_, .next hrun (by rw [hlink]) hlegs, ?_⟩
  rw [List.map_cons, hmarks, Fabric.mark, Fabric.wire?]
  dsimp only
  rw [hlink, fabric_parameters, horigin]

/-- From a gate the packet comes to the other group, in the next channel. -/
theorem traces_gate (hgate : n.isGate index k'.dest.target.toNat k'.slot.toNat = true)
    (hroom : c.contains (k.channel + 1) = true)
    (rest : n.fabric.Traces met server (hop + 1)
      (n.gate k'.dest.target.toNat (n.parameters.groupOf index) k'.slot.toNat)
      { k' with channel := k.channel + 1 } marks) :
    n.fabric.Traces met server hop index k
      (⟨n.parameters.groupOf index, some Link.globalKind, k.channel + 1,
        if k'.dest.target ≠ k'.dest.group ∨ n.parameters.groupOf index ≠ k'.origin.toNat then 1 else 0,
        k.dest.target.toNat, k'.dest.target.toNat⟩ :: marks) := by
  have hchannel : n.channelToward index k'.dest.target.toNat k'.slot.toNat k.channel = k.channel + 1 :=
    if_pos hgate
  have hnext : n.nextToward index k'.dest.target.toNat k'.slot.toNat =
      n.gate k'.dest.target.toNat (n.parameters.groupOf index) k'.slot.toNat := if_pos hgate
  have hwire : n.wireToward index k'.dest.target.toNat k'.slot.toNat = Link.globalKind := if_pos hgate
  have h := traces_step server marks hmet hc hk hin hi haway hdecides horigin hahead
  rw [hchannel, hnext, hwire] at h
  exact h hroom rest

/-- From any other router it comes to the gate, in the same channel. -/
theorem traces_aside (hgate : n.isGate index k'.dest.target.toNat k'.slot.toNat = false)
    (rest : n.fabric.Traces met server (hop + 1)
      (n.nextToward index k'.dest.target.toNat k'.slot.toNat) { k' with channel := k.channel } marks) :
    n.fabric.Traces met server hop index k
      (⟨n.parameters.groupOf index, some Link.localKind, k.channel,
        if k'.dest.target ≠ k'.dest.group ∨ n.parameters.groupOf index ≠ k'.origin.toNat then 1 else 0,
        k.dest.target.toNat, k'.dest.target.toNat⟩ :: marks) := by
  have hchannel : n.channelToward index k'.dest.target.toNat k'.slot.toNat k.channel = k.channel := by
    rw [channelToward, hgate]
    rfl
  have hwire : n.wireToward index k'.dest.target.toNat k'.slot.toNat = Link.localKind := by
    rw [wireToward, hgate]
    rfl
  have h := traces_step server marks hmet hc hk hin hi haway hdecides horigin hahead
  rw [hchannel, hwire] at h
  exact h hin rest

/-- **A packet that is settled on a way to another group comes there**, by the gate. -/
theorem traces_crossing (hk' : k'.Routable n)
    (hgroup : k'.dest.group = k.dest.group)
    (hkeep : k'.Settled c.algorithm (n.parameters.groupOf index))
    (hroom : c.contains (k.channel + 1) = true) {label : Nat}
    (hlabel : (if k'.dest.target ≠ k'.dest.group ∨ n.parameters.groupOf index ≠ k'.origin.toNat then 1 else 0)
      = label) {P : List Mark → Prop}
    (rest : ∀ hop, ∃ marks, P marks ∧ n.fabric.Traces met server hop
      (n.gate k'.dest.target.toNat (n.parameters.groupOf index) k'.slot.toNat)
      { k' with channel := k.channel + 1 } marks) :
    ∃ aside marks, P marks ∧ n.fabric.Traces met server hop index k
      (Mark.crossing (n.parameters.groupOf index) k.channel label k.dest.target.toNat k'.dest.target.toNat
        aside ++ marks) := by
  subst hlabel
  cases hgate : n.isGate index k'.dest.target.toNat k'.slot.toNat with
  | true =>
    obtain ⟨marks, hp, hrest⟩ := rest (hop + 1)
    exact ⟨false, marks, hp, traces_gate _ _ hmet hc hk hin hi haway hdecides horigin hahead hgate hroom hrest⟩
  | false =>
    obtain ⟨hahead', hgate'⟩ := hahead.next hgate
    have hhere : n.parameters.groupOf (n.nextToward index k'.dest.target.toNat k'.slot.toNat) =
        n.parameters.groupOf index := by
      rw [hahead.groupOf_nextToward, hgate]
      rfl
    -- At the gate the packet decides again, and keeps to its way.
    have hsettled : Decides met c.algorithm (hop + 1) (n.nextToward index k'.dest.target.toNat k'.slot.toNat)
        { k' with channel := k.channel } { k' with channel := k.channel } :=
      decides_settled (k := { k' with channel := k.channel }) c.algorithm hmet hahead'.index_lt
        (by rw [hhere, hgroup]; exact haway) hahead'.ne (hhere ▸ hkeep.inChannel _) (hop + 1)
    obtain ⟨marks, hp, hrest⟩ := rest (hop + 2)
    have h := traces_gate (k := { k' with channel := k.channel }) server marks hmet hc
      (hk'.inChannel _) hin hahead'.index_lt (by rw [hhere, hgroup]; exact haway) hsettled rfl hahead' hgate'
      hroom
    rw [hhere] at h
    exact ⟨true, marks, hp, traces_aside _ _ hmet hc hk hin hi haway hdecides horigin hahead hgate (h hrest)⟩

end Crossings

/-! ### From the source to the destination -/

section Courses

variable {k' : Packet} (hmet : n.Running met) (hc : n.plan.get network = .ok c)

include hmet hc

/-- Beyond the gate to the group of its destination a packet comes to its host. -/
theorem traces_across (hk : k.Routable n) (htarget : k.dest.target = k.dest.group)
    (hahead : n.Ahead index k.dest.target.toNat k.slot.toNat) (hin : c.contains channel = true) (hop : Nat) :
    ∃ aside, n.fabric.Traces met (n.server k.dest) hop
      (n.gate k.dest.target.toNat (n.parameters.groupOf index) k.slot.toNat) { k with channel := channel }
      (Mark.arrival k.dest.group.toNat channel aside) := by
  have hlt := n.gate_lt hahead.group_lt hahead.here_lt hahead.ne.symm hahead.slot_lt
  have hgroup := n.groupOf_gate hahead.group_lt hahead.here_lt hahead.ne.symm hahead.slot_lt
  exact ⟨_, traces_arrival hmet hc (hk.inChannel channel) hin hlt (hgroup.trans (by rw [htarget])) htarget hop⟩

/-- **A packet that goes straight crosses one wire between groups and arrives.** -/
theorem traces_direct (hk : k.Routable n) (htarget : k.dest.target = k.dest.group)
    (hahead : n.Ahead index k.dest.target.toNat k.slot.toNat)
    (hsource : n.parameters.groupOf index = k.origin.toNat)
    (hkeep : k.Settled c.algorithm (n.parameters.groupOf index))
    (hin : c.contains k.channel = true) (hroom : c.contains (k.channel + 1) = true) (hop : Nat) :
    ∃ aside aside', n.fabric.Traces met (n.server k.dest) hop index k
      (Mark.direct (n.parameters.groupOf index) k.dest.group.toNat k.channel aside aside') := by
  have haway : n.parameters.groupOf index ≠ k.dest.group.toNat := by
    rw [← htarget]
    exact hahead.ne
  have hdecides := decides_settled c.algorithm hmet hahead.index_lt haway hahead.ne hkeep hop
  have hlabel : (if k.dest.target ≠ k.dest.group ∨ n.parameters.groupOf index ≠ k.origin.toNat then 1 else 0)
      = 0 := if_neg (by rw [htarget, hsource]; simp)
  obtain ⟨aside, marks, ⟨aside', rfl⟩, htraces⟩ := traces_crossing _
    (P := fun marks => ∃ aside, marks = Mark.arrival k.dest.group.toNat (k.channel + 1) aside)
    hmet hc hk hin hahead.index_lt haway hdecides rfl hahead hk rfl hkeep hroom hlabel
    fun hop => by
      obtain ⟨aside, h⟩ := traces_across hmet hc hk htarget hahead hroom hop
      exact ⟨_, ⟨aside, rfl⟩, h⟩
  rw [htarget] at htraces
  exact ⟨aside, aside', htraces⟩

/-- In the group it was sent through, a packet turns home, crosses the next wire between groups and arrives. -/
theorem traces_turning (hk : k.Routable n) (hi : index < n.parameters.routerCount)
    (h : n.parameters.groupOf index = k.dest.target.toNat)
    (haway : n.parameters.groupOf index ≠ k.dest.group.toNat)
    (hsource : n.parameters.groupOf index ≠ k.origin.toNat)
    (hin : c.contains k.channel = true) (hroom : c.contains (k.channel + 1) = true) (hop : Nat) :
    ∃ aside aside', n.fabric.Traces met (n.server k.dest) hop index k
      (Mark.crossing k.dest.target.toNat k.channel 1 k.dest.target.toNat k.dest.group.toNat aside ++
        Mark.arrival k.dest.group.toNat (k.channel + 1) aside') := by
  obtain ⟨slot, hslot, hdecides⟩ := decides_turning c.algorithm hmet hi h haway hsource hop
  let home : Packet := { k with dest := { k.dest with target := k.dest.group }, slot := slot }
  have hhome : home.Routable n := ⟨hk.group_lt, hk.group_lt, hk.router_lt, hk.host_lt⟩
  have hahead : n.Ahead index home.dest.target.toNat home.slot.toNat := ⟨hi, hk.group_lt, haway, hslot⟩
  obtain ⟨aside, marks, ⟨aside', rfl⟩, htraces⟩ := traces_crossing _
    (P := fun marks => ∃ aside, marks = Mark.arrival k.dest.group.toNat (k.channel + 1) aside)
    hmet hc hk hin hi haway hdecides rfl hahead hhome rfl (.group hsource) hroom (if_pos (.inr hsource))
    fun hop => by
      obtain ⟨aside, h⟩ := traces_across hmet hc hhome rfl hahead hroom hop
      exact ⟨_, ⟨aside, rfl⟩, h⟩
  rw [h] at htraces
  exact ⟨aside, aside', htraces⟩

/-- **A packet that was sent through another group crosses there, and from there to its own group.** -/
theorem traces_detour (hk : k.Routable n) (hin : c.contains k.channel = true)
    (haway : n.parameters.groupOf index ≠ k.dest.group.toNat)
    (hsource : n.parameters.groupOf index = k.origin.toNat)
    (hdecides : Decides met c.algorithm hop index k k') (hk' : k'.Routable n) (horigin : k'.origin = k.origin)
    (hgroup : k'.dest.group = k.dest.group) (hthrough : k'.dest.target ≠ k'.dest.group)
    (hahead : n.Ahead index k'.dest.target.toNat k'.slot.toNat)
    (hroom : c.contains (k.channel + 1) = true) (hroom' : c.contains (k.channel + 2) = true) :
    ∃ aside aside' aside'', n.fabric.Traces met (n.server k'.dest) hop index k
      (Mark.detour (n.parameters.groupOf index) k'.dest.target.toNat k.dest.group.toNat k.channel
        k.dest.target.toNat aside aside' aside'') := by
  have hlt := n.gate_lt hahead.group_lt hahead.here_lt hahead.ne.symm hahead.slot_lt
  have hthere := n.groupOf_gate hahead.group_lt hahead.here_lt hahead.ne.symm hahead.slot_lt
  obtain ⟨aside, marks, ⟨aside', aside'', rfl⟩, htraces⟩ := traces_crossing _
    (P := fun marks => ∃ aside aside', marks =
      Mark.crossing k'.dest.target.toNat (k.channel + 1) 1 k'.dest.target.toNat k.dest.group.toNat aside ++
        Mark.arrival k.dest.group.toNat (k.channel + 2) aside')
    hmet hc hk hin hahead.index_lt haway hdecides horigin hahead hk' hgroup (.target hthrough) hroom
    (if_pos (.inl hthrough)) fun hop => by
      obtain ⟨aside, aside', h⟩ := traces_turning hmet hc (hk'.inChannel (k.channel + 1)) hlt hthere
        (by rw [hthere]; exact fun heq => hthrough (UInt32.toNat_inj.mp heq))
        (by rw [hthere, horigin, ← hsource]; exact hahead.ne.symm) hroom hroom' hop
      rw [hgroup] at h
      exact ⟨_, ⟨aside, aside', rfl⟩, h⟩
  exact ⟨aside, aside', aside'', htraces⟩

end Courses

/-! ### Adaptive packets -/

section Adaptive

variable (hmet : n.Running met) (hc : n.plan.get network = .ok c) (hk : k.Routable n)
  (hin : c.contains k.channel = true) (hsource : n.parameters.groupOf index = k.origin.toNat)
  (htarget : k.dest.target = k.dest.group) (hstraight : n.Ahead index k.dest.target.toNat k.slot.toNat)
  (haround : n.Ahead index k.dest.alternate.toNat k.otherSlot.toNat) (hne : k.dest.alternate ≠ k.dest.group)
  (hroom : c.contains (k.channel + 1) = true) (hroom' : c.contains (k.channel + 2) = true)

include hmet hc hk hin hsource htarget hstraight haround hne hroom hroom'

/-- Where it turns, it goes the other way to the end. -/
theorem traces_turned (hdecides : Decides met c.algorithm hop index k k.turned) :
    ∃ aside aside' aside'', n.fabric.Traces met (n.server k.dest) hop index k
      (Mark.detour (n.parameters.groupOf index) k.dest.alternate.toNat k.dest.group.toNat k.channel
        k.dest.group.toNat aside aside' aside'') := by
  have hturned : k.turned.Routable n := ⟨hk.group_lt, haround.group_lt, hk.router_lt, hk.host_lt⟩
  have h := traces_detour hmet hc hk hin (htarget ▸ hstraight.ne) hsource hdecides hturned rfl rfl hne haround
    hroom hroom'
  rw [htarget] at h
  exact h

/-- At the gate of the straight way, it goes through it or turns to the other way. -/
theorem traces_either_gate (hgate : n.isGate index k.dest.target.toNat k.slot.toNat = true) (hop : Nat) :
    (∃ aside, n.fabric.Traces met (n.server k.dest) hop index k
      (Mark.direct (n.parameters.groupOf index) k.dest.group.toNat k.channel false aside)) ∨
    ∃ aside aside' aside'', n.fabric.Traces met (n.server k.dest) hop index k
      (Mark.detour (n.parameters.groupOf index) k.dest.alternate.toNat k.dest.group.toNat k.channel
        k.dest.group.toNat aside aside' aside'') := by
  have haway : n.parameters.groupOf index ≠ k.dest.group.toNat := htarget ▸ hstraight.ne
  rcases decides_open c.algorithm hmet hstraight.index_lt (htarget ▸ hstraight) haround htarget hop
    with hdecides | hdecides
  · obtain ⟨aside, hrest⟩ := traces_across hmet hc hk htarget hstraight hroom (hop + 1)
    have h := traces_gate _ _ hmet hc hk hin hstraight.index_lt haway hdecides rfl hstraight hgate hroom hrest
    rw [if_neg (by rw [htarget, hsource]; simp), htarget] at h
    exact .inl ⟨aside, h⟩
  · exact .inr (traces_turned hmet hc hk hin hsource htarget hstraight haround hne hroom hroom' hdecides)

/-- At another router, if it does not turn, it goes to that gate and decides once more there. -/
theorem traces_hesitates (hgate : n.isGate index k.dest.target.toNat k.slot.toNat = false)
    (hdecides : Decides met c.algorithm hop index k k) :
    (∃ aside, n.fabric.Traces met (n.server k.dest) hop index k
      (Mark.direct (n.parameters.groupOf index) k.dest.group.toNat k.channel true aside)) ∨
    ∃ aside aside' aside'', n.fabric.Traces met (n.server k.dest) hop index k
      (Mark.approach (n.parameters.groupOf index) k.dest.group.toNat k.channel true ++
        Mark.detour (n.parameters.groupOf index) k.dest.alternate.toNat k.dest.group.toNat k.channel
          k.dest.group.toNat aside aside' aside'') := by
  have haway : n.parameters.groupOf index ≠ k.dest.group.toNat := htarget ▸ hstraight.ne
  obtain ⟨hahead, hgate'⟩ := hstraight.next hgate
  have hhere : n.parameters.groupOf (n.nextToward index k.dest.target.toNat k.slot.toNat) =
      n.parameters.groupOf index := by
    rw [hstraight.groupOf_nextToward, hgate]
    rfl
  have haround' : n.Ahead (n.nextToward index k.dest.target.toNat k.slot.toNat) k.dest.alternate.toNat
      k.otherSlot.toNat :=
    ⟨hahead.index_lt, haround.group_lt, hhere ▸ haround.ne, haround.slot_lt⟩
  have hlabel : (if k.dest.target ≠ k.dest.group ∨ n.parameters.groupOf index ≠ k.origin.toNat then 1 else 0)
      = 0 := if_neg (by rw [htarget, hsource]; simp)
  have hstep {marks} := traces_aside (n.server k.dest) marks hmet hc hk hin
    hstraight.index_lt haway hdecides rfl hstraight hgate
  rw [hlabel, htarget] at hstep
  have hlast := traces_either_gate hmet hc hk hin (hhere.trans hsource) htarget hahead haround' hne hroom hroom'
    hgate' (hop + 1)
  rw [hhere, htarget] at hlast
  rcases hlast with ⟨aside, h⟩ | ⟨aside, aside', aside'', h⟩
  · exact .inl ⟨aside, hstep h⟩
  · exact .inr ⟨aside, aside', aside'', hstep h⟩

/-- **An adaptive packet goes straight, or turns to the other way at one of the first two routers.** -/
theorem traces_either (hop : Nat) :
    (∃ aside aside', n.fabric.Traces met (n.server k.dest) hop index k
      (Mark.direct (n.parameters.groupOf index) k.dest.group.toNat k.channel aside aside')) ∨
    ∃ hesitates aside aside' aside'', n.fabric.Traces met (n.server k.dest) hop index k
      (Mark.approach (n.parameters.groupOf index) k.dest.group.toNat k.channel hesitates ++
        Mark.detour (n.parameters.groupOf index) k.dest.alternate.toNat k.dest.group.toNat k.channel
          k.dest.group.toNat aside aside' aside'') := by
  cases hgate : n.isGate index k.dest.target.toNat k.slot.toNat with
  | true =>
    rcases traces_either_gate hmet hc hk hin hsource htarget hstraight haround hne hroom hroom' hgate hop
      with ⟨aside, h⟩ | h
    · exact .inl ⟨false, aside, h⟩
    · exact .inr ⟨false, h⟩
  | false =>
    rcases decides_open c.algorithm hmet hstraight.index_lt (htarget ▸ hstraight) haround htarget hop
      with hdecides | hdecides
    · rcases traces_hesitates hmet hc hk hin hsource htarget hstraight haround hne hroom hroom' hgate hdecides
        with ⟨aside, h⟩ | h
      · exact .inl ⟨true, aside, h⟩
      · exact .inr ⟨true, h⟩
    · exact .inr ⟨false,
        traces_turned hmet hc hk hin hsource htarget hstraight haround hne hroom hroom' hdecides⟩

end Adaptive

end Installation

end DragonflyFabric
