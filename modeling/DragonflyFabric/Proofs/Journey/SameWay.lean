import DragonflyFabric.Proofs.Journey.Straight

/-!
# Packets on the straight way by the source hash

Three kinds of packets go the straight way by the parallel link that the source hash names: control packets,
data that is sent to one host before the start, and, where slots are chosen by that hash, the packets of minimal
classes. The first two ask at every router anew; the last ones choose when they enter, and the choice is cut to
sixteen bits.

* `fixedPort_eq`: what the first two are told at a router.
* `Packet.Heads.forwardSeen`: what becomes of the last at a router.
* `same_way`: all three go one way, which depends on the two hosts alone.
-/

namespace DragonflyFabric

/-- The port by which data for one host leaves; there is no other. -/
def solePort : List Nat → Except Fault Nat
  | [port] => .ok port
  | _ => .error .abort

namespace Fabric

/-- Follows what leaves each router by the port that the router names, for a number of hops at most. -/
def trail (f : Fabric) (ask : Nat → Nat → Nat → Except Fault Nat) :
    Nat → Nat → Nat → Nat → List (Nat × Nat) × WalkEnd
  | 0, _, _, _ => ([], .limit)
  | limit + 1, hop, index, portIn =>
    match ask hop index portIn with
    | .error why => ([], .failed why)
    | .ok port =>
      match (f.link index port).peer with
      | .server server => ([(index, port)], .delivered server)
      | .nothing => ([(index, port)], .unconnected)
      | .router next nextPort =>
        let (way, ending) := trail f ask limit (hop + 1) next nextPort
        ((index, port) :: way, ending)

end Fabric

/-- The routers of the legs, with the ports by which the packet left them. -/
def Journey.way (j : Journey) : List (Nat × Nat) := j.legs.map fun l => (l.router, l.egress.port)

/-! ### Addresses -/

/-- The address of a host, with nothing cut off. -/
structure Address.Names (n : Installation) (host : Nat) (dest : Address) : Prop where
  group_eq : dest.group.toNat = n.homeGroup host
  router_eq : dest.router.toNat = n.parameters.positionOf (n.home host)
  host_eq : dest.host.toNat = host % n.parameters.hosts

namespace Installation

variable {n : Installation} {index host slot : Nat}

theorem exists_address (hh : host < n.parameters.hostCount) (hhosts : n.parameters.hosts ≤ 2 ^ 32)
    (hrouters : n.parameters.routers ≤ 2 ^ 32) :
    ∃ dest, n.parameters.locate host = .ok dest ∧ dest.Names n host ∧ dest.target = dest.group := by
  refine ⟨_, Parameters.locate_of_lt (n.hosts_lt hh) hh, ⟨?_, ?_, ?_⟩, rfl⟩
  · exact toNat_group (Parameters.groupOf_lt (Parameters.div_hosts_lt hh))
  · exact UInt32.toNat_ofNat_of_lt' (lt_of_lt_of_le (Nat.mod_lt _ n.checked.routers_pos) hrouters)
  · exact UInt32.toNat_ofNat_of_lt' (lt_of_lt_of_le (Nat.mod_lt _ n.checked.hosts_pos) hhosts)

/-- In the group of the host the port is the one that its address tells. -/
theorem straightPort_eq_portHome (slot : Nat) {dest : Address} (hdest : dest.Names n host)
    (hgroup : n.parameters.groupOf index = n.homeGroup host) :
    n.straightPort index host slot = n.portHome index dest := by
  rw [portHome, hdest.router_eq, hdest.host_eq]
  by_cases hhome : index = n.home host
  · rw [hhome, straightPort_home, if_pos rfl]
  · rw [(straight_within slot hgroup hhome).1, if_neg (positionOf_ne hgroup hhome)]

/-! ### Asking at every router -/

/-- Whoever is told the ports of the straight way at every router comes to the host by it. -/
theorem trail_of_straight {ask : Nat → Nat → Nat → Except Fault Nat} {way : List (Nat × Nat)} {limit : Nat}
    (hway : n.Straight host slot index way) (hi : index < n.parameters.routerCount)
    (hh : host < n.parameters.hostCount) (hs : slot < n.parameters.links)
    (hask : ∀ hop index portIn, index < n.parameters.routerCount →
      ask hop index portIn = .ok (n.straightPort index host slot))
    (hlimit : way.length ≤ limit) (hop portIn : Nat) :
    n.fabric.trail ask limit hop index portIn = (way, .delivered host) := by
  induction hway generalizing limit hop portIn with
  | arrived =>
    cases limit with
    | zero => exact absurd hlimit (Nat.not_succ_le_zero _)
    | succ limit =>
      rw [Fabric.trail, hask hop _ portIn hi, straightPort_home]
      dsimp only
      rw [link_home hi]
  | @next index way haway _ ih =>
    cases limit with
    | zero => exact absurd hlimit (Nat.not_succ_le_zero _)
    | succ limit =>
      obtain ⟨nextPort, kind, hlink⟩ := link_straightPort hi hh hs haway
      rw [Fabric.trail, hask hop _ portIn hi]
      dsimp only
      rw [hlink]
      dsimp only
      rw [ih (straightNext_lt hi hh hs) (Nat.le_of_succ_le_succ hlimit)]

end Installation

/-- The slot that the source hash names for two hosts. -/
def Installation.hashSlot (n : Installation) (source host : Nat) : Nat :=
  hashedSlot source (n.homeGroup host) n.parameters.links

theorem Installation.hashSlot_lt (n : Installation) (source host : Nat) : n.hashSlot source host < n.parameters.links :=
  Nat.mod_lt _ n.checked.links_pos

namespace Router.InService

variable {n : Installation} {index host source : Nat} {r : Router} {dest : Address}

/-- **What looks at nothing that changes takes the straight way** by the slot of the source hash. -/
theorem fixedPort_eq (hr : r.InService n index) (hh : host < n.parameters.hostCount) (hdest : dest.Names n host)
    (source : Nat) : r.site.fixedPort source dest = .ok (n.straightPort index host (n.hashSlot source host)) := by
  rw [Site.fixedPort, hr.group_eq, hdest.group_eq, hr.parameters_eq]
  by_cases hgroup : n.parameters.groupOf index = n.homeGroup host
  · rw [if_pos hgroup.symm, Installation.straightPort_eq_portHome _ hdest hgroup, Installation.portHome,
      Site.portToRouter, hr.position_eq, hr.parameters_eq]
    simp only [eq_comm]
  · have hahead := Installation.ahead_of_away hr.index_lt hh (n.hashSlot_lt source host) hgroup
    rw [if_neg (Ne.symm hgroup), (Installation.straight_away hahead).1]
    exact hahead.portToGroup_eq hr

theorem controlPort_eq (hr : r.InService n index) (hhosts : n.parameters.hosts ≤ 2 ^ 32)
    (hrouters : n.parameters.routers ≤ 2 ^ 32) {q : Request} (hh : q.destination < n.parameters.hostCount) :
    r.site.controlPort q = .ok (n.straightPort index q.destination (n.hashSlot q.source q.destination)) := by
  obtain ⟨dest, hlocate, hdest, -⟩ := Installation.exists_address hh hhosts hrouters
  rw [Site.controlPort, hr.parameters_eq, hlocate]
  exact hr.fixedPort_eq hh hdest q.source

/-- Data for one host. -/
theorem announce_spec (hr : r.InService n index) (hhosts : n.parameters.hosts ≤ 2 ^ 32)
    (hrouters : n.parameters.routers ≤ 2 ^ 32) {q : Request} (hh : q.destination < n.parameters.hostCount)
    (hone : q.destination ≠ broadcastDestination) :
    ∃ k, r.site.announce q = .ok k ∧ k.request = q ∧ k.dest.Names n q.destination := by
  obtain ⟨dest, hlocate, hdest, -⟩ := Installation.exists_address hh hhosts hrouters
  refine ⟨⟨q, 0, UInt32.ofNat r.site.group, dest, 0, 0⟩, ?_, rfl, hdest⟩
  rw [Site.announce, if_neg hone, hr.parameters_eq, hlocate]
  rfl

theorem announcePorts_of_names (hr : r.InService n index) {k : Packet} (hh : host < n.parameters.hostCount)
    (hdest : k.dest.Names n host) (portIn : Nat) :
    r.site.announcePorts portIn k = .ok [n.straightPort index host (n.hashSlot k.request.source host)] := by
  have hone : k.dest.isEveryone = false := by
    rw [Address.isEveryone, decide_eq_false_iff_not]
    intro hall
    have hgroup := hdest.group_eq
    have hlt := Parameters.groupOf_lt (Parameters.div_hosts_lt hh)
    rw [hall] at hgroup
    rw [show n.parameters.groupOf (host / n.parameters.hosts) = _ from hgroup.symm] at hlt
    exact absurd n.groups_lt (Nat.not_lt.mpr (Nat.le_of_lt hlt))
  rw [Site.announcePorts, hone, if_neg Bool.false_ne_true, hr.fixedPort_eq hh hdest]
  rfl

end Router.InService

/-! ### Carrying the slot along -/

/-- A minimal packet at a router on its straight way to a host. In other groups than that of the host it has the
slot, and there is room for it in the next channel. -/
structure Packet.Heads (n : Installation) (c : TrafficClass) (host slot index : Nat) (k : Packet) : Prop where
  routable : k.Routable n
  names : k.dest.Names n host
  target_eq : k.dest.target = k.dest.group
  slot_eq : n.parameters.groupOf index ≠ n.homeGroup host → k.slot.toNat = slot
  room : c.contains k.channel = true
  more : n.parameters.groupOf index ≠ n.homeGroup host → c.contains (k.channel + 1) = true

section Minimal

variable {n : Installation} {c : TrafficClass} {network index host slot : Nat}

namespace Packet.Heads

/-- At the next router of its way it heads for the host as well, in the channel that it has there. -/
theorem next {k : Packet} (hk : k.Heads n c host slot index) (hi : index < n.parameters.routerCount)
    (hh : host < n.parameters.hostCount) (hs : slot < n.parameters.links) :
    ({ k with channel := n.straightChannel index host slot k.channel } : Packet).Heads n c host slot
      (n.straightNext index host slot) := by
  by_cases hgroup : n.parameters.groupOf index = n.homeGroup host
  · have hnext : n.parameters.groupOf (n.straightNext index host slot) = n.homeGroup host := by
      rw [Installation.straightNext, if_pos hgroup]
    rw [Installation.straightChannel, if_pos hgroup]
    exact ⟨hk.routable.inChannel _, hk.names, hk.target_eq, fun haway => absurd hnext haway, hk.room,
      fun haway => absurd hnext haway⟩
  · have hahead := Installation.ahead_of_away hi hh hs hgroup
    rw [Installation.straightChannel, if_neg hgroup, (Installation.straight_away hahead).2]
    refine ⟨hk.routable.inChannel _, hk.names, hk.target_eq, fun _ => hk.slot_eq hgroup, ?_, ?_⟩
    · rw [Installation.channelToward]
      split
      · exact hk.more hgroup
      · exact hk.room
    · intro hfurther
      rw [hahead.groupOf_nextToward] at hfurther
      split at hfurther
      · exact absurd rfl hfurther
      · next hgate =>
        rw [Installation.channelToward, if_neg hgate]
        exact hk.more hgroup

variable {t : Transit} {seen : Congestion} (hr : t.router.InService n index) (hc : n.plan.get network = .ok c)
  (hk : t.packet.Heads n c host slot index)

include hr hc hk

/-- **A packet that keeps to its way leaves by the port of the straight way.** -/
theorem forwardSeen_kept (hh : host < n.parameters.hostCount) (hs : slot < n.parameters.links)
    (hseen : t.router.congestion = .ok seen)
    (hkept : n.parameters.groupOf index ≠ n.homeGroup host →
      t.decided c.algorithm t.packet.channel seen = .ok t.packet) :
    (Transit.forwardSeen t.packet.channel).run t =
      (.ok ⟨n.straightPort index host slot, n.straightChannel index host slot t.packet.channel,
          if n.parameters.groupOf index ≠ n.homeGroup host ∧
            n.parameters.groupOf index ≠ t.packet.origin.toNat then 1 else 0⟩,
        { t with packet :=
          { t.packet with channel := n.straightChannel index host slot t.packet.channel } }) := by
  by_cases hgroup : n.parameters.groupOf index = n.homeGroup host
  · have hhere : n.parameters.groupOf index = t.packet.dest.group.toNat := hgroup.trans hk.names.group_eq.symm
    rw [Transit.forwardSeen_home hr hk.routable hc hk.room hhere hk.target_eq,
      Installation.straightPort_eq_portHome slot hk.names hgroup, Installation.straightChannel, if_pos hgroup,
      if_neg fun h => h.1 hgroup]
  · have hahead := Installation.ahead_of_away hr.index_lt hh hs hgroup
    have htarget : t.packet.dest.target.toNat = n.homeGroup host := by rw [hk.target_eq, hk.names.group_eq]
    have hroom := (hk.next hr.index_lt hh hs).room
    dsimp only at hroom
    rw [Installation.straightChannel, if_neg hgroup] at hroom ⊢
    have hrun := Transit.forwardSeen_away hr hk.routable hc hk.room (by rw [hk.names.group_eq]; exact hgroup) hseen
      (hkept hgroup) (by rw [htarget, hk.slot_eq hgroup]; exact hahead)
      (by rw [htarget, hk.slot_eq hgroup]; exact hroom)
    rw [Transit.turnHome_eq_self hr (by rw [htarget]; exact hgroup), htarget, hk.slot_eq hgroup,
      ← (Installation.straight_away hahead).1] at hrun
    simpa [hk.target_eq, hgroup] using hrun

/-- **At every router of its straight way it leaves by the port of that way**, whatever the state of the router. -/
theorem forwardSeen (hminimal : c.algorithm = .minimal) (hh : host < n.parameters.hostCount)
    (hs : slot < n.parameters.links) :
    ∃ channel label t', (Transit.forwardSeen t.packet.channel).run t =
        (.ok ⟨n.straightPort index host slot, channel, label⟩, t') ∧
      t'.packet.Heads n c host slot (n.straightNext index host slot) := by
  obtain ⟨seen, hseen⟩ := hr.exists_congestion
  have hkept : n.parameters.groupOf index ≠ n.homeGroup host →
      t.decided c.algorithm t.packet.channel seen = .ok t.packet := by
    intro haway
    rw [← hk.names.group_eq] at haway
    exact Transit.decided_settled hr haway (by rwa [hk.target_eq]) (.algorithm (by rw [hminimal]; decide))
  exact ⟨_, _, _, hk.forwardSeen_kept hr hc hh hs hseen hkept, hk.next hr.index_lt hh hs⟩

end Packet.Heads

/-- **A minimal packet goes the straight way.** -/
theorem Installation.delivers_straight {met : Nat → Nat → Router} {way : List (Nat × Nat)} (hmet : n.Running met)
    (hc : n.plan.get network = .ok c) (hminimal : c.algorithm = .minimal) (hh : host < n.parameters.hostCount)
    (hs : slot < n.parameters.links) (hway : n.Straight host slot index way) (hi : index < n.parameters.routerCount)
    {k : Packet} (hk : k.Heads n c host slot index) (hop : Nat) :
    ∃ legs, n.fabric.Delivers met host hop index k legs ∧ legs.map (fun l => (l.router, l.egress.port)) = way := by
  induction hway generalizing hop k with
  | arrived =>
    obtain ⟨channel, label, t', hrun, -⟩ := hk.forwardSeen (t := ⟨met hop _, k⟩) (hmet hop _ hi) hc hminimal hh hs
    rw [straightPort_home] at hrun
    exact ⟨_, .last hrun (congrArg Link.peer (link_home hi)), rfl⟩
  | @next index way haway _ ih =>
    obtain ⟨channel, label, t', hrun, hnext⟩ :=
      hk.forwardSeen (t := ⟨met hop _, k⟩) (hmet hop _ hi) hc hminimal hh hs
    obtain ⟨nextPort, kind, hlink⟩ := link_straightPort hi hh hs haway
    obtain ⟨legs, hlegs, rfl⟩ := ih (straightNext_lt hi hh hs) hnext (hop + 1)
    exact ⟨_, .next hrun (congrArg Link.peer hlink) hlegs, rfl⟩

/-! ### Choosing the slot -/

namespace Router.InService

variable {r : Router} {q : Request} {k : Packet}

theorem chooseSlot_of_sourceHash (hr : r.InService n index) (hpolicy : n.settings.policy = .sourceHash)
    (source group : Nat) : r.chooseSlot source group = (UInt16.ofNat (hashedSlot source group n.parameters.links), r) := by
  rw [Router.chooseSlot, hr.policy_eq, hpolicy, hr.parameters_eq]

/-- The slot that a minimal packet for another group gets when it enters. -/
theorem slot_of_inject (hr : r.InService n index) (hd : q.destination < n.parameters.hostCount)
    (hc : n.plan.get q.network = .ok c) (hminimal : c.algorithm = .minimal)
    (hpolicy : n.settings.policy = .sourceHash) (haway : n.parameters.groupOf index ≠ n.homeGroup q.destination)
    (hk : (r.inject q).1 = .ok k) : k.slot = UInt16.ofNat (n.hashSlot q.source q.destination) := by
  obtain ⟨dest, hlocate, -, -, hmade⟩ := hr.made_enter hd c
  have hgroup : dest.group.toNat = n.homeGroup q.destination := hmade.group_eq
  rw [Router.inject, hr.parameters_eq, hr.plan_eq, hlocate, hc] at hk
  dsimp only [bind, Except.bind, pure, Except.pure] at hk
  rw [hgroup, hr.group_eq, if_neg (Ne.symm haway), hminimal, Transit.choose_run] at hk
  dsimp only at hk
  rw [if_pos rfl, Transit.takeSlot, Transit.enter] at hk
  dsimp only at hk
  rw [hr.chooseSlot_of_sourceHash hpolicy] at hk
  cases hk
  rfl

/-- **A minimal packet enters on the straight way** by the slot of the source hash, which is not cut off. -/
theorem heads_of_inject (hr : r.InService n index) (hhosts : n.parameters.hosts ≤ 2 ^ 32)
    (hrouters : n.parameters.routers ≤ 2 ^ 32) (hlinks : n.parameters.links ≤ 65536)
    (hd : q.destination < n.parameters.hostCount) (hc : n.plan.get q.network = .ok c)
    (hminimal : c.algorithm = .minimal) (hpolicy : n.settings.policy = .sourceHash) :
    ∃ k, (r.inject q).1 = .ok k ∧ k.Heads n c q.destination (n.hashSlot q.source q.destination) index := by
  obtain ⟨k, hinject, hk⟩ := hr.inject_spec hd hc
  refine ⟨k, hinject, hk.routable, ⟨hk.group_eq, hk.toNat_router hrouters, hk.toNat_host hhosts⟩, ?_, ?_, ?_, ?_⟩
  · cases hk.way with
    | straight htarget => exact htarget
    | around _ hvaliant =>
      rw [hminimal] at hvaliant
      cases hvaliant
    | either hadaptive =>
      rw [hminimal] at hadaptive
      cases hadaptive
  · intro haway
    rw [hr.slot_of_inject hd hc hminimal hpolicy haway hinject,
      UInt16.toNat_ofNat_of_lt' (lt_of_lt_of_le (n.hashSlot_lt _ _) hlinks)]
  · exact hk.contains_add hc (show 0 < _ by rw [hminimal]; decide)
  · exact fun _ => hk.contains_add hc (show 1 < _ by rw [hminimal]; decide)

end Router.InService

end Minimal

/-! ### One way for all -/

namespace Installation

variable {n n' : Installation} {index host slot : Nat}

theorem table_of_same (hp : n'.parameters = n.parameters) (hm : n'.settings.linkMap = n.settings.linkMap) :
    n'.table = n.table := by
  have h : ExitTable.View.ofLinkMap n'.parameters n'.settings.linkMap = .ok n'.table := n'.table_eq
  rw [hp, hm] at h
  exact Except.ok.inj (h.symm.trans n.table_eq)

section Same

variable (hp : n'.parameters = n.parameters) (hn : n'.numbering = n.numbering) (ht : n'.table = n.table)

include hp

theorem home_of_same (host : Nat) : n'.home host = n.home host ∧ n'.homeGroup host = n.homeGroup host := by
  rw [homeGroup, homeGroup, home, home, hp]
  exact ⟨rfl, rfl⟩

include hn ht

theorem gates_of_same : n'.exitTo = n.exitTo ∧ n'.gate = n.gate ∧ n'.isGate = n.isGate := by
  have hexit : n'.exitTo = n.exitTo := by
    funext group other slot
    rw [exitTo, exitTo, hp, hn, ht]
  have hgate : n'.gate = n.gate := by
    funext group other slot
    rw [gate, gate, hexit, hp]
  refine ⟨hexit, hgate, ?_⟩
  funext index group slot
  rw [isGate, isGate, hgate, hp]

theorem straight_of_same : n'.straightPort = n.straightPort ∧ n'.straightNext = n.straightNext ∧
    n'.straightChannel = n.straightChannel := by
  obtain ⟨hexit, hgate, hisGate⟩ := gates_of_same hp hn ht
  refine ⟨?_, ?_, ?_⟩
  · funext index host slot
    obtain ⟨hhome, hgroup⟩ := home_of_same hp host
    rw [straightPort, straightPort, portToward, portToward, hisGate, hexit, hgroup, hhome, hp]
  · funext index host slot
    obtain ⟨hhome, hgroup⟩ := home_of_same hp host
    rw [straightNext, straightNext, nextToward, nextToward, hisGate, hgate, hgroup, hhome, hp]
  · funext index host slot channel
    rw [straightChannel, straightChannel, channelToward, channelToward, hisGate, (home_of_same hp host).2, hp]

/-- A straight way depends on the shape of the network and its table alone. -/
theorem Straight.of_same {way : List (Nat × Nat)} (hway : n.Straight host slot index way) :
    n'.Straight host slot index way := by
  obtain ⟨hport, hnext, -⟩ := straight_of_same hp hn ht
  obtain ⟨hhome, -⟩ := home_of_same hp host
  induction hway with
  | arrived =>
    have h : n'.Straight host slot (n'.home host) [(n'.home host, host % n'.parameters.hosts)] := .arrived
    rwa [hhome, hp] at h
  | next haway _ ih =>
    rw [← hport]
    exact .next (by rwa [hhome]) (by rwa [hnext])

end Same

/-- The journey of a minimal packet that enters on a straight way. -/
theorem journey_of_straight {met : Nat → Nat → Router} {q : Request} {c : TrafficClass} {way : List (Nat × Nat)}
    {limit : Nat} (hmet : n.Running met) (hhosts : n.parameters.hosts ≤ 2 ^ 32)
    (hrouters : n.parameters.routers ≤ 2 ^ 32) (hlinks : n.parameters.links ≤ 65536)
    (hs : q.source < n.parameters.hostCount) (hd : q.destination < n.parameters.hostCount)
    (hc : n.plan.get q.network = .ok c) (hminimal : c.algorithm = .minimal) (hpolicy : n.settings.policy = .sourceHash)
    (hway : n.Straight q.destination (n.hashSlot q.source q.destination) (n.home q.source) way)
    (hlimit : way.length ≤ limit) :
    ∃ j, n.fabric.journey met limit q = .ok j ∧ j.way = way ∧ j.ending = .delivered q.destination := by
  have hi := Parameters.div_hosts_lt hs
  obtain ⟨k, hinject, hk⟩ := (hmet 0 _ hi).heads_of_inject hhosts hrouters hlinks hd hc hminimal hpolicy
  obtain ⟨legs, hlegs, rfl⟩ := delivers_straight hmet hc hminimal hd (n.hashSlot_lt _ _) hway hi hk 1
  rw [List.length_map] at hlimit
  refine ⟨⟨k, legs, .delivered q.destination⟩, ?_, rfl, rfl⟩
  rw [Fabric.journey, fabric_parameters, hinject]
  dsimp only
  rw [Fabric.follow_of_delivers hlegs hlimit]

/-- **Control packets, data for one host that is sent before the start, and minimal packets whose slots are
chosen by the source hash go the same way** between two hosts. It is a way of four hops at most, and nothing else
has an influence on it: not the traffic, nor the traffic class, nor what the algorithms and the policy are where
they are not asked for. -/
theorem same_way (n : Installation) {s d : Nat} (hs : s < n.parameters.hostCount) (hd : d < n.parameters.hostCount)
    (hhosts : n.parameters.hosts ≤ 2 ^ 32) (hrouters : n.parameters.routers ≤ 2 ^ 32)
    (hlinks : n.parameters.links ≤ 65536) :
    ∃ way : List (Nat × Nat), way.length ≤ 4 ∧
      (∀ met q limit, n.Running met → q.source = s → q.destination = d → 4 ≤ limit →
        n.fabric.trail (fun hop index _ => (met hop index).site.controlPort q) limit 0 (n.home s)
          (s % n.parameters.hosts) = (way, .delivered d)) ∧
      (∀ met q limit, n.Running met → q.source = s → q.destination = d → d ≠ broadcastDestination → 4 ≤ limit →
        ∃ k, (met 0 (n.home s)).site.announce q = .ok k ∧
          n.fabric.trail (fun hop index portIn => (met hop index).site.announcePorts portIn k >>= solePort) limit 1
            (n.home s) (s % n.parameters.hosts) = (way, .delivered d)) ∧
      ∀ (n' : Installation) met q c limit, n'.parameters = n.parameters → n'.numbering = n.numbering →
        n'.settings.linkMap = n.settings.linkMap → n'.settings.policy = .sourceHash →
        n'.plan.get q.network = .ok c → c.algorithm = .minimal → n'.Running met → q.source = s →
        q.destination = d → 4 ≤ limit →
        ∃ j, n'.fabric.journey met limit q = .ok j ∧ j.way = way ∧ j.ending = .delivered d := by
  have hi : n.home s < n.parameters.routerCount := Parameters.div_hosts_lt hs
  have hslot := n.hashSlot_lt s d
  obtain ⟨way, hlength, hway⟩ := exists_straight hi hd hslot
  refine ⟨way, hlength, ?_, ?_, ?_⟩
  · rintro met q limit hmet rfl rfl hlimit
    refine trail_of_straight hway hi hd hslot ?_ (Nat.le_trans hlength hlimit) 0 _
    exact fun hop index _ hindex => (hmet hop index hindex).controlPort_eq hhosts hrouters hd
  · rintro met q limit hmet rfl rfl hone hlimit
    obtain ⟨k, hannounce, hrequest, hnames⟩ := (hmet 0 _ hi).announce_spec hhosts hrouters hd hone
    refine ⟨k, hannounce, trail_of_straight hway hi hd hslot ?_ (Nat.le_trans hlength hlimit) 1 _⟩
    intro hop index portIn hindex
    rw [(hmet hop index hindex).announcePorts_of_names hd hnames, hrequest]
    rfl
  · rintro n' met q c limit hp hn hm hpolicy hc hminimal hmet rfl rfl hlimit
    have hway' := hway.of_same hp hn (table_of_same hp hm)
    rw [← (home_of_same hp _).1, hashSlot, ← (home_of_same hp _).2, ← hp] at hway'
    rw [← hp] at hs hd hhosts hrouters hlinks
    exact journey_of_straight hmet hhosts hrouters hlinks hs hd hc hminimal hpolicy hway'
      (Nat.le_trans hlength hlimit)

/-- At the small network, whose policy is the source hash, in its minimal class. -/
theorem same_way_sample :
    5 < sample.parameters.hostCount ∧ sample.parameters.links ≤ 65536 ∧ sample.Running
        (fun _ index => sample.newRouter index sample.plan.total) ∧
      ∃ way : List (Nat × Nat), way.length ≤ 4 ∧
        sample.fabric.trail (fun _ index _ => (sample.newRouter index 8).site.controlPort ⟨0, 5, 1, 64⟩) 4 0 0 0 =
          (way, .delivered 5) ∧
        (∃ k, (sample.newRouter 0 8).site.announce ⟨0, 5, 1, 64⟩ = .ok k ∧
          sample.fabric.trail (fun _ index portIn =>
            (sample.newRouter index 8).site.announcePorts portIn k >>= solePort) 4 1 0 0 = (way, .delivered 5)) ∧
        ∃ j, sample.fabric.journey (fun _ index => sample.newRouter index 8) 4 ⟨0, 5, 0, 64⟩ = .ok j ∧
          j.way = way ∧ j.ending = .delivered 5 := by
  obtain ⟨way, hlength, hcontrol, hdata, hjourney⟩ :=
    sample.same_way (s := 0) (d := 5) (by decide) (by decide) (by decide) (by decide) (by decide)
  refine ⟨by decide, by decide, sample.running_new, way, hlength, ?_, ?_, ?_⟩
  · exact hcontrol _ ⟨0, 5, 1, 64⟩ 4 sample.running_new rfl rfl (Nat.le_refl 4)
  · exact hdata _ ⟨0, 5, 1, 64⟩ 4 sample.running_new rfl rfl (by decide) (Nat.le_refl 4)
  · exact hjourney sample _ ⟨0, 5, 0, 64⟩ ⟨0, 2, .minimal⟩ 4 rfl rfl rfl rfl rfl rfl sample.running_new rfl rfl
      (Nat.le_refl 4)

end Installation

end DragonflyFabric
