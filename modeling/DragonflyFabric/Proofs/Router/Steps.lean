import DragonflyFabric.Proofs.Router.Gates

/-!
# One step of a packet

What a router in service does to a packet that is on its way: `forwardSeen_home` in the group of its
destination, `forwardSeen_away` in any other one. In the latter the step starts with a decision, which is
one of three.

* `decided_settled`: the packet keeps to its way.
* `decided_turning`: in the group it was sent through, it turns toward its destination by a slot drawn here.
* `decided_open`: where an adaptive packet may still turn, it keeps to the straight way or takes the other
  one, whatever the congestion.
-/

namespace DragonflyFabric

variable {n : Installation} {c : TrafficClass} {index network channel : Nat}

/-! ### Addresses -/

/-- A packet that routers accept: it heads for one of the groups, on the way to a host of the network. -/
structure Packet.Routable (n : Installation) (k : Packet) : Prop where
  group_lt : k.dest.group.toNat < n.parameters.groups
  target_lt : k.dest.target.toNat < n.parameters.groups
  router_lt : k.dest.router.toNat < n.parameters.routers
  host_lt : k.dest.host.toNat < n.parameters.hosts

theorem Packet.Routable.inChannel {k : Packet} (h : k.Routable n) (channel : Nat) :
    ({ k with channel := channel } : Packet).Routable n :=
  ⟨h.group_lt, h.target_lt, h.router_lt, h.host_lt⟩

namespace Router.InService

variable {r : Router} {k : Packet} (hr : r.InService n index)

include hr

theorem checkDestination_eq (hk : k.Routable n) : r.site.checkDestination k.dest = .ok () := by
  have heveryone : k.dest.isEveryone = false := by
    rw [Address.isEveryone, decide_eq_false_iff_not]
    intro hall
    have hlt := hk.group_lt
    rw [hall] at hlt
    exact absurd n.groups_lt (Nat.not_lt.mpr (Nat.le_of_lt hlt))
  have hgroup := hk.group_lt
  have htarget := hk.target_lt
  have hrouter := hk.router_lt
  have hhost := hk.host_lt
  rw [Site.checkDestination, hr.parameters_eq, if_neg]
  simp only [heveryone, Bool.false_eq_true, false_or]
  omega

/-- No other packet is accepted. -/
theorem routable (h : r.site.checkDestination k.dest = .ok ()) : k.Routable n := by
  rw [Site.checkDestination, hr.parameters_eq] at h
  split at h
  · cases h
  · next hgood =>
    push Not at hgood
    exact ⟨hgood.2.1, hgood.2.2.2.2, hgood.2.2.1, hgood.2.2.2.1⟩

theorem exists_congestion : ∃ seen, r.congestion = .ok seen := by
  have hlevels : ∀ g, ∃ levels, r.levels g = .ok levels := by
    intro g
    rw [Router.levels]
    cases hm : r.meter g with
    | none => exact ⟨_, rfl⟩
    | some m =>
      refine ⟨m.levels, ?_⟩
      dsimp only
      rw [hr.free g m hm]
      rfl
  obtain ⟨credits, hcredits⟩ := hlevels .credits
  obtain ⟨queues, hqueues⟩ := hlevels .queues
  refine ⟨⟨credits, queues, r.site.channels⟩, ?_⟩
  rw [Router.congestion, hcredits, hqueues]
  rfl

theorem stage_eq : r.site.stage k = .of (n.parameters.groupOf index) (n.parameters.positionOf index)
    k.origin.toNat k.dest := by
  rw [Site.stage, hr.group_eq, hr.position_eq]

theorem classOf_eq (hc : n.plan.get network = .ok c) (hin : c.contains channel = true) :
    r.site.plan.classOf channel = .ok (network, c) := by
  rw [hr.plan_eq]
  exact n.laidOut.classOf_eq hc hin

end Router.InService

/-! ### In the group of the destination -/

namespace Installation

/-- The port of a router of the destination group toward the destination. -/
def portHome (n : Installation) (index : Nat) (dest : Address) : Nat :=
  if n.parameters.positionOf index = dest.router.toNat then dest.host.toNat
  else n.parameters.portToSibling (n.parameters.positionOf index) dest.router.toNat

theorem classOf?_portHome (index : Nat) {k : Packet} (hk : k.Routable n) :
    ∃ kind, kind ≠ .exit ∧ n.parameters.classOf? (n.portHome index k.dest) = some kind := by
  rw [portHome]
  split
  · exact ⟨.host, by decide, Parameters.classOf?_host hk.host_lt⟩
  · next hne =>
    exact ⟨.sibling, by decide, Parameters.classOf?_portToSibling hne
      (Parameters.positionOf_lt n.checked.routers_pos _) hk.router_lt⟩

end Installation

namespace Transit

/-- In the group of its destination the port is the one toward the destination, and nothing is decided. -/
theorem choosePort_home {t : Transit} (hr : t.router.InService n index)
    (hhere : n.parameters.groupOf index = t.packet.dest.group.toNat) (algorithm : Algorithm) (channel : Nat)
    (seen : Congestion) :
    (choosePort algorithm (t.router.site.stage t.packet) channel seen).run t =
      (.ok (n.portHome index t.packet.dest), t) := by
  have hstage : t.router.site.stage t.packet =
      if n.parameters.positionOf index = t.packet.dest.router.toNat then .arrived else .inDestination := by
    rw [hr.stage_eq, Stage.of, if_pos hhere]
  rw [choosePort_run, hstage, Installation.portHome]
  by_cases harrived : n.parameters.positionOf index = t.packet.dest.router.toNat
  · rw [if_pos harrived, if_pos harrived]
  · rw [if_neg harrived, if_neg harrived, Site.portToRouter, hr.parameters_eq, hr.position_eq]

variable {t : Transit} (hr : t.router.InService n index) (hk : t.packet.Routable n)
  (hc : n.plan.get network = .ok c) (hin : c.contains channel = true)

include hr hk hc hin

/-- **In the group of its destination a packet goes to its router, and there to its host.** -/
theorem forwardSeen_home (hhere : n.parameters.groupOf index = t.packet.dest.group.toNat)
    (htarget : t.packet.dest.target = t.packet.dest.group) :
    (forwardSeen channel).run t =
      (.ok ⟨n.portHome index t.packet.dest, channel, 0⟩,
        { t with packet := { t.packet with channel := channel } }) := by
  obtain ⟨seen, hseen⟩ := hr.exists_congestion
  obtain ⟨kind, hexit, hkind⟩ := Installation.classOf?_portHome index hk
  have hchannel : t.router.site.channelBehind (n.portHome index t.packet.dest) channel = channel := by
    rw [Site.channelBehind, hr.parameters_eq, hkind, if_neg]
    exact fun heq => hexit (Option.some.inj heq)
  have hstage : t.router.site.stage t.packet =
      if n.parameters.positionOf index = t.packet.dest.router.toNat then .arrived else .inDestination := by
    rw [hr.stage_eq, Stage.of, if_pos hhere]
  have hlabel : ¬(t.packet.dest.target ≠ t.packet.dest.group ∨ t.router.site.stage t.packet = .between) := by
    rw [hstage, htarget]
    split <;> simp
  rw [forwardSeen_run hseen, forward_run (hr.classOf_eq hc hin) (hr.checkDestination_eq hk)
    (choosePort_home hr hhere c.algorithm channel seen) (hr.parameters_eq ▸ hkind) (by rwa [hchannel]), hchannel,
    if_neg hlabel]

/-- The packet after the decision that is due at a router: its turn home, or the choice of an adaptive one. -/
def decided (t : Transit) (algorithm : Algorithm) (channel : Nat) (seen : Congestion) : Except Fault Packet :=
  if t.router.site.mayTurn algorithm (t.router.site.stage t.packet) t.turnHome.packet then
    t.router.site.adapt seen channel t.turnHome.packet
  else .ok t.turnHome.packet

/-- **In any other group it takes the way that was decided on.** -/
theorem forwardSeen_away (hhere : n.parameters.groupOf index ≠ t.packet.dest.group.toNat)
    {k : Packet} {seen : Congestion} (hseen : t.router.congestion = .ok seen)
    (hdecided : t.decided c.algorithm channel seen = .ok k)
    (hahead : n.Ahead index k.dest.target.toNat k.slot.toNat)
    (hroom : c.contains (n.channelToward index k.dest.target.toNat k.slot.toNat channel) = true) :
    (forwardSeen channel).run t =
      (.ok ⟨n.portToward index k.dest.target.toNat k.slot.toNat,
          n.channelToward index k.dest.target.toNat k.slot.toNat channel,
          if k.dest.target ≠ k.dest.group ∨ n.parameters.groupOf index ≠ t.packet.origin.toNat then 1 else 0⟩,
        { t.turnHome with packet :=
          { k with channel := n.channelToward index k.dest.target.toNat k.slot.toNat channel } }) := by
  have hstage : t.router.site.stage t.packet =
      if n.parameters.groupOf index = t.packet.origin.toNat then .atSource else .between := by
    rw [hr.stage_eq, Stage.of, if_neg hhere]
  have hport : (choosePort c.algorithm (t.router.site.stage t.packet) channel seen).run t =
      (.ok (n.portToward index k.dest.target.toNat k.slot.toNat), { t.turnHome with packet := k }) := by
    rw [decided] at hdecided
    rw [choosePort_run, ← hahead.portToGroup_eq hr]
    by_cases hsource : n.parameters.groupOf index = t.packet.origin.toNat
    · rw [hstage, if_pos hsource] at hdecided ⊢
      dsimp only
      rw [hdecided]
    · rw [hstage, if_neg hsource] at hdecided ⊢
      dsimp only
      rw [hdecided]
  have hlabel : t.router.site.stage t.packet = .between ↔ n.parameters.groupOf index ≠ t.packet.origin.toNat := by
    rw [hstage]
    split <;> simp [*]
  rw [forwardSeen_run hseen, forward_run (hr.classOf_eq hc hin) (hr.checkDestination_eq hk) hport
    (hr.parameters_eq ▸ hahead.classOf?_portToward) (by rwa [hahead.channelBehind_eq hr]),
    hahead.channelBehind_eq hr]
  simp only [hlabel]

end Transit

/-! ### Decisions -/

/-- The packet that took its other choice. -/
def Packet.turned (k : Packet) : Packet :=
  { k with
    dest := { k.dest with target := k.dest.alternate }
    slot := k.otherSlot
    otherSlot := k.slot }

theorem Stage.of_eq_atSource {group position origin : Nat} {dest : Address}
    (h : Stage.of group position origin dest = .atSource) : group ≠ dest.group.toNat ∧ group = origin := by
  rw [Stage.of] at h
  split at h
  · split at h <;> cases h
  · next haway =>
    split at h
    · next hsource => exact ⟨haway, hsource⟩
    · cases h

theorem Site.of_mayTurn {s : Site} {algorithm : Algorithm} {stage : Stage} {k : Packet}
    (h : s.mayTurn algorithm stage k = true) :
    algorithm = .adaptive ∧ stage = .atSource ∧ k.dest.target = k.dest.group ∧ k.dest.alternate ≠ k.dest.group ∧
      k.dest.alternate.toNat ≠ s.group := by
  simpa [Site.mayTurn, and_assoc] using h

/-- A port is weighed by the channel that the packet gets behind it. -/
theorem Site.weighedChannel_eq {s : Site} (hh : 0 < s.parameters.hosts) (hr : 0 < s.parameters.routers)
    (port channel : Nat) : s.weighedChannel port channel = s.channelBehind port channel := by
  simp only [Site.weighedChannel, Site.channelBehind, Parameters.classOf?_exit_iff hh hr]

/-- A packet that does not turn to another choice in a group, because its algorithm has none, because it
turned there before, because there is none, or because this is not its source group. -/
inductive Packet.Settled (algorithm : Algorithm) (here : Nat) (k : Packet) : Prop
  | algorithm (h : algorithm ≠ .adaptive)
  | target (h : k.dest.target ≠ k.dest.group)
  | alternate (h : k.dest.alternate = k.dest.group)
  | group (h : here ≠ k.origin.toNat)

theorem Packet.Settled.inChannel {algorithm : Algorithm} {here : Nat} {k : Packet} (h : k.Settled algorithm here)
    (channel : Nat) :
    ({ k with channel := channel } : Packet).Settled algorithm here := by
  cases h with
  | algorithm h => exact .algorithm h
  | target h => exact .target h
  | alternate h => exact .alternate h
  | group h => exact .group h

namespace Transit

variable {t : Transit} {algorithm : Algorithm} {seen : Congestion} (hr : t.router.InService n index)

include hr

theorem turnHome_eq_self (h : n.parameters.groupOf index ≠ t.packet.dest.target.toNat) : t.turnHome = t := by
  rw [turnHome, hr.group_eq]
  exact if_neg h

theorem decided_settled (haway : n.parameters.groupOf index ≠ t.packet.dest.group.toNat)
    (h : n.parameters.groupOf index ≠ t.packet.dest.target.toNat)
    (hkeep : t.packet.Settled algorithm (n.parameters.groupOf index)) :
    t.decided algorithm channel seen = .ok t.packet := by
  have hmay : t.router.site.mayTurn algorithm (t.router.site.stage t.packet) t.packet = false := by
    rw [hr.stage_eq, Stage.of, if_neg haway]
    cases hkeep with
    | algorithm hne => simp [Site.mayTurn, hne]
    | target hne => simp [Site.mayTurn, hne]
    | alternate heq => simp [Site.mayTurn, heq]
    | group hne => simp [Site.mayTurn, hne]
  rw [decided, turnHome_eq_self hr h, hmay]
  rfl

/-- A group that a packet was sent through turns it home, by a slot of its own. -/
theorem decided_turning (h : n.parameters.groupOf index = t.packet.dest.target.toNat)
    (haway : n.parameters.groupOf index ≠ t.packet.dest.group.toNat)
    (hsource : n.parameters.groupOf index ≠ t.packet.origin.toNat) :
    ∃ slot : UInt16, slot.toNat < n.parameters.links ∧
      t.decided algorithm channel seen =
        .ok { t.packet with dest := { t.packet.dest with target := t.packet.dest.group }, slot := slot } := by
  have hslot := hr.chooseSlot t.packet.request.source t.packet.dest.group.toNat
  refine ⟨_, hslot.1, ?_⟩
  have hmay : ∀ k, t.router.site.mayTurn algorithm (t.router.site.stage t.packet) k = false := by
    intro k
    rw [hr.stage_eq, Stage.of, if_neg haway, if_neg hsource]
    simp [Site.mayTurn]
  rw [decided, hmay, turnHome, hr.group_eq]
  dsimp only
  rw [if_pos h]
  rfl

/-- Whatever the congestion, an adaptive packet in its source group that heads straight for the destination
either goes on so or takes the other choice. -/
theorem decided_open (hstraight : n.Ahead index t.packet.dest.group.toNat t.packet.slot.toNat)
    (haround : n.Ahead index t.packet.dest.alternate.toNat t.packet.otherSlot.toNat)
    (htarget : t.packet.dest.target = t.packet.dest.group) :
    t.decided algorithm channel seen = .ok t.packet ∨
      t.decided algorithm channel seen = .ok t.packet.turned := by
  have hhome : t.turnHome = t := turnHome_eq_self hr (by rw [htarget]; exact hstraight.ne)
  rw [decided, hhome]
  split
  · rw [Site.adapt, hstraight.portToGroup_eq hr, haround.portToGroup_eq hr]
    dsimp only [bind, Except.bind]
    split
    · exact .inr rfl
    · exact .inl rfl
  · exact .inl rfl

end Transit

end DragonflyFabric
