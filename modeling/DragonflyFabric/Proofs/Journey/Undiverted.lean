import DragonflyFabric.Proofs.Congestion
import DragonflyFabric.Proofs.Journey.Course
import DragonflyFabric.Proofs.Journey.SameWay
import DragonflyFabric.Proofs.Wiring.Trunks

/-!
# Adaptive packets that never turn

An adaptive packet carries another choice along and compares its two ways at every router of its source group. As
long as no comparison favours the other one, it goes the way of a minimal packet with the same slot:
`undiverted_same_way`. The two are followed side by side, in two networks of the same shape, each in its own class
and among routers in any states; what they share at every hop is `Packet.Follows`.

With an infinite threshold no comparison ever favours the other way: `not_diverts_of_inf`.
-/

namespace DragonflyFabric

/-! ### Comparisons -/

/-- The straight port of a packet costs more than the threshold allows, against the port of its other choice. -/
def Site.FavoursOther (s : Site) (seen : Congestion) (channel : Nat) (k : Packet) : Prop :=
  ∃ straight around, s.portToGroup k.dest.group.toNat k.slot.toNat none = .ok straight ∧
    s.portToGroup k.dest.alternate.toNat k.otherSlot.toNat none = .ok around ∧
    s.threshold * seen.cost around (s.channelBehind around channel) <
      seen.cost straight (s.channelBehind straight channel)

/-- A router compares the two ways of an adaptive packet, and the other one is favoured. -/
def Router.Diverts (r : Router) (k : Packet) : Prop :=
  r.site.mayTurn .adaptive (r.site.stage k) k = true ∧
    ∃ seen, r.congestion = .ok seen ∧ r.site.FavoursOther seen k.channel k

/-- No comparison on the journey favours the other way. The first router is met at the first hop. -/
def Journey.Undiverted (met : Nat → Nat → Router) (j : Journey) : Prop :=
  ∀ i leg, j.legs[i]? = some leg → ¬(met (i + 1) leg.router).Diverts leg.before

/-- Legs that lead from one router by one port, with one label, in channels at one place of two classes. -/
structure Leg.Alike (c c' : TrafficClass) (l l' : Leg) : Prop where
  router_eq : l'.router = l.router
  port_eq : l'.egress.port = l.egress.port
  label_eq : l'.egress.label = l.egress.label
  channel_eq : ∃ offset, l.egress.channel = c.start + offset ∧ l'.egress.channel = c'.start + offset

/-- With an infinite threshold no router diverts a packet. -/
theorem Router.not_diverts_of_inf {r : Router} (h : r.site.threshold = Float.inf) (k : Packet) : ¬r.Diverts k := by
  rintro ⟨-, seen, -, straight, around, -, -, hcost⟩
  rw [h] at hcost
  exact not_inf_mul_lt (seen.notNegative_cost around _) _ hcost

theorem Router.InService.threshold_eq {n : Installation} {index : Nat} {r : Router} (hr : r.InService n index) :
    r.site.threshold = n.settings.threshold := by
  obtain ⟨_, hsite⟩ := hr.site_eq
  rw [hsite]
  rfl

/-! ### What both packets share -/

/-- A packet of a class on its straight way to a host, which has crossed so many wires between groups. -/
structure Packet.Follows (n : Installation) (c : TrafficClass) (host slot crossed index : Nat) (k : Packet) : Prop
    extends k.Heads n c host slot index where
  channel_eq : k.channel = c.start + crossed
  origin_eq : n.parameters.groupOf index ≠ n.homeGroup host → k.origin.toNat = n.parameters.groupOf index
  alternate_lt : k.dest.alternate.toNat < n.parameters.groups
  otherSlot_lt : k.otherSlot.toNat < n.parameters.links

section Following

variable {n : Installation} {c : TrafficClass} {network index host slot crossed : Nat}

namespace Packet

variable {k : Packet} {q : Request}

theorem Routable.names (h : k.Routable n) : k.dest.Names n (n.server k.dest) := by
  have hserver : n.server k.dest =
      n.parameters.routerAt k.dest.group.toNat k.dest.router.toNat * n.parameters.hosts + k.dest.host.toNat :=
    Word.wrap_of_lt (n.number_lt (Parameters.routerAt_lt h.group_lt h.router_lt) h.host_lt)
  have hhome : n.home (n.server k.dest) = n.parameters.routerAt k.dest.group.toNat k.dest.router.toNat := by
    rw [hserver, Installation.home, Grid.place_div h.host_lt]
  refine ⟨?_, ?_, ?_⟩
  · rw [Installation.homeGroup, hhome, Parameters.groupOf_routerAt h.router_lt]
  · rw [hhome, Parameters.positionOf_routerAt h.router_lt]
  · rw [hserver, Grid.place_mod h.host_lt]

theorem Routable.server_lt (h : k.Routable n)
    (hw : n.parameters.hosts * n.parameters.routers * n.parameters.groups < 2 ^ 64) :
    n.server k.dest < n.parameters.hostCount := by
  have hrouter := Parameters.routerAt_lt h.group_lt h.router_lt
  rw [Installation.server, Parameters.hostAt_eq hw.le h.group_lt h.router_lt h.host_lt, Parameters.hostCount_eq hw]
  exact Parameters.number_lt hrouter h.host_lt

/-- A packet that enters, but for one that is sent through another group. -/
theorem Entered.follows (hk : k.Entered n c index q) (hc : n.plan.get network = .ok c)
    (hvaliant : c.algorithm ≠ .valiant) : k.Follows n c (n.server k.dest) k.slot.toNat 0 index := by
  have hchannels : 1 < c.algorithm.channels := by cases c.algorithm <;> decide
  have hway : k.dest.target = k.dest.group ∧ k.dest.alternate.toNat < n.parameters.groups := by
    cases hk.way with
    | straight htarget halternate => exact ⟨htarget, by rw [halternate]; exact hk.routable.group_lt⟩
    | around _ halgorithm => exact absurd halgorithm hvaliant
    | either _ htarget halternate => exact ⟨htarget, halternate⟩
  exact
    { routable := hk.routable
      names := hk.routable.names
      target_eq := hway.1
      slot_eq := fun _ => rfl
      room := hk.contains_add hc (Nat.zero_lt_of_lt hchannels)
      more := fun _ => hk.contains_add hc hchannels
      channel_eq := hk.channel_eq
      origin_eq := fun _ => hk.origin_eq
      alternate_lt := hway.2
      otherSlot_lt := hk.otherSlot_lt }

namespace Follows

variable (hh : host < n.parameters.hostCount) (hs : slot < n.parameters.links)

include hh hs

theorem next (hk : k.Follows n c host slot crossed index) (hi : index < n.parameters.routerCount) :
    ({ k with channel := n.straightChannel index host slot k.channel } : Packet).Follows n c host slot
      (n.straightChannel index host slot crossed) (n.straightNext index host slot) where
  toHeads := hk.toHeads.next hi hh hs
  channel_eq := by rw [hk.channel_eq, n.straightChannel_add]
  origin_eq haway := by
    obtain ⟨haway, hsame⟩ := Installation.of_straightNext_away hi hh hs haway
    rw [hsame]
    exact hk.origin_eq haway
  alternate_lt := hk.alternate_lt
  otherSlot_lt := hk.otherSlot_lt

variable {t : Transit} {seen : Congestion} (hr : t.router.InService n index)
  (hk : t.packet.Follows n c host slot crossed index)

include hr hk

/-- Where a comparison is due, both ways lead to other groups. -/
theorem ahead_of_mayTurn {algorithm : Algorithm}
    (hmay : t.router.site.mayTurn algorithm (t.router.site.stage t.packet) t.packet = true) :
    n.Ahead index t.packet.dest.group.toNat t.packet.slot.toNat ∧
      n.Ahead index t.packet.dest.alternate.toNat t.packet.otherSlot.toNat := by
  obtain ⟨-, hstage, -, -, hother⟩ := Site.of_mayTurn hmay
  rw [hr.stage_eq] at hstage
  have haway : n.parameters.groupOf index ≠ n.homeGroup host := by
    rw [← hk.names.group_eq]
    exact (Stage.of_eq_atSource hstage).1
  refine ⟨?_, hr.index_lt, hk.alternate_lt, fun heq => hother (by rw [hr.group_eq, heq]), hk.otherSlot_lt⟩
  rw [hk.names.group_eq, hk.slot_eq haway]
  exact Installation.ahead_of_away hr.index_lt hh hs haway

/-- Unless a comparison favours its other choice, a packet keeps to its way. -/
theorem decided_eq (hseen : t.router.congestion = .ok seen)
    (hnot : c.algorithm = .adaptive → ¬t.router.Diverts t.packet)
    (haway : n.parameters.groupOf index ≠ n.homeGroup host) :
    t.decided c.algorithm t.packet.channel seen = .ok t.packet := by
  have htarget : t.packet.dest.target.toNat = n.homeGroup host := by rw [hk.target_eq, hk.names.group_eq]
  rw [Transit.decided, Transit.turnHome_eq_self hr (by rw [htarget]; exact haway)]
  split
  · next hmay =>
    obtain ⟨hstraight, haround⟩ := hk.ahead_of_mayTurn hh hs hr hmay
    obtain ⟨hadaptive, -⟩ := Site.of_mayTurn hmay
    rw [hadaptive] at hmay
    have hhosts : 0 < t.router.site.parameters.hosts := hr.parameters_eq ▸ n.checked.hosts_pos
    have hrouters : 0 < t.router.site.parameters.routers := hr.parameters_eq ▸ n.checked.routers_pos
    rw [Site.adapt, hstraight.portToGroup_eq hr, haround.portToGroup_eq hr]
    dsimp only [bind, Except.bind]
    simp only [Site.weighedChannel_eq hhosts hrouters]
    rw [if_neg]
    · rfl
    · intro hcost
      exact hnot hadaptive ⟨hmay, seen, hseen, _, _, hstraight.portToGroup_eq hr, haround.portToGroup_eq hr, hcost⟩
  · rfl

variable (hc : n.plan.get network = .ok c)

include hc

/-- **Unless a comparison favours its other choice, a packet goes the straight way**, in the same place of its class
whichever class that is, and with no label. -/
theorem forwardSeen_eq (hnot : c.algorithm = .adaptive → ¬t.router.Diverts t.packet) :
    (Transit.forwardSeen t.packet.channel).run t =
      (.ok ⟨n.straightPort index host slot, c.start + n.straightChannel index host slot crossed, 0⟩,
        { t with packet := { t.packet with channel := n.straightChannel index host slot t.packet.channel } }) := by
  obtain ⟨seen, hseen⟩ := hr.exists_congestion
  rw [hk.toHeads.forwardSeen_kept hr hc hh hs hseen (hk.decided_eq hh hs hr hseen hnot), if_neg, hk.channel_eq,
    n.straightChannel_add]
  rintro ⟨haway, horigin⟩
  exact horigin (hk.origin_eq haway).symm

/-- It is let go in any case, also when it takes its other choice. -/
theorem exists_forwardSeen : ∃ egress t', (Transit.forwardSeen t.packet.channel).run t = (.ok egress, t') := by
  by_cases hnot : c.algorithm = .adaptive → ¬t.router.Diverts t.packet
  · exact ⟨_, _, hk.forwardSeen_eq hh hs hr hc hnot⟩
  push Not at hnot
  obtain ⟨-, hmay, -⟩ := hnot
  obtain ⟨hstraight, haround⟩ := hk.ahead_of_mayTurn hh hs hr hmay
  have haway : n.parameters.groupOf index ≠ n.homeGroup host := by
    rw [← hk.names.group_eq]
    exact hstraight.ne
  obtain ⟨seen, hseen⟩ := hr.exists_congestion
  rcases Transit.decided_open hr hstraight haround hk.target_eq with hdecided | hdecided
  · exact ⟨_, _, hk.toHeads.forwardSeen_kept hr hc hh hs hseen fun _ => hdecided⟩
  · refine ⟨_, _, Transit.forwardSeen_away hr hk.routable hc hk.room hstraight.ne hseen hdecided haround ?_⟩
    rw [Installation.channelToward]
    split
    · exact hk.more haway
    · exact hk.room

end Follows

end Packet

end Following

/-! ### Side by side -/

namespace Installation

variable {n n' : Installation} {met met' : Nat → Nat → Router} {c c' : TrafficClass}
  {network network' index host slot crossed limit hop : Nat} {k k' : Packet} {q : Request}

/-- No wire leads out of the network. -/
theorem next_lt (hi : index < n.parameters.routerCount) {port next nextPort : Nat}
    (h : (n.fabric.link index port).peer = .router next nextPort) : next < n.parameters.routerCount := by
  have hrouters := n.checked.routers_pos
  have hport : port < n.parameters.radix := by
    rw [← n.fabric_parameters] at hrouters ⊢
    exact Fabric.lt_radix_of_router hrouters h
  rw [fabric_eq_ofParts] at h
  obtain ⟨link, hlink, hnext⟩ := Fabric.described_wiring n.checked n.table_eq n.numbering index port hi hport
  have hsame := Option.some.inj ((if_neg (Nat.ne_of_gt hrouters)).symm.trans hlink)
  exact hnext next nextPort (by rw [← hsame, h])

theorem router_lt_of_follow (hi : index < n.parameters.routerCount) {i : Nat} {leg : Leg}
    (hleg : (n.fabric.follow met limit hop index k).1[i]? = some leg) : leg.router < n.parameters.routerCount :=
  (Fabric.of_follow (I := fun index _ => index < n.parameters.routerCount)
    (fun _ _ _ _ _ _ _ hi _ hpeer => next_lt hi hpeer) hi hleg).1

section Same

variable (hp : n'.parameters = n.parameters) (hn : n'.numbering = n.numbering)
  (hm : n'.settings.linkMap = n.settings.linkMap)

include hp hn hm

theorem fabric_of_same : n'.fabric = n.fabric := by
  rw [n'.fabric_eq_ofParts, n.fabric_eq_ofParts, hp, hm, table_of_same hp hm]
  exact congrArg (fun numbering => Fabric.ofParts _ numbering _ _) hn

variable (hmet : n.Running met) (hmet' : n'.Running met') (hc : n.plan.get network = .ok c)
  (hc' : n'.plan.get network' = .ok c') (hminimal : c'.algorithm = .minimal) (hh : host < n.parameters.hostCount)
  (hs : slot < n.parameters.links)

include hmet hmet' hc hc' hminimal hh hs

/-- **Two packets that follow one way are followed alike**, as long as the first one never turns. -/
theorem follow_alike (hi : index < n.parameters.routerCount) (hk : k.Follows n c host slot crossed index)
    (hk' : k'.Follows n' c' host slot crossed index)
    (hnever : ∀ i leg, (n.fabric.follow met limit hop index k).1[i]? = some leg →
      ¬(met (hop + i) leg.router).Diverts leg.before) :
    List.Forall₂ (Leg.Alike c c') (n.fabric.follow met limit hop index k).1
        (n'.fabric.follow met' limit hop index k').1 ∧
      (n'.fabric.follow met' limit hop index k').2 = (n.fabric.follow met limit hop index k).2 := by
  induction limit generalizing hop index crossed k k' with
  | zero => exact ⟨.nil, rfl⟩
  | succ limit ih =>
    have hr := hmet hop index hi
    have hr' := hmet' hop index (by rwa [hp])
    have hh' : host < n'.parameters.hostCount := by rwa [hp]
    have hs' : slot < n'.parameters.links := by rwa [hp]
    have hnot : ¬(met hop index).Diverts k := by
      obtain ⟨egress, t, hrun⟩ := hk.exists_forwardSeen (t := ⟨met hop index, k⟩) hh hs hr hc
      obtain ⟨rest, hrest⟩ := Fabric.exists_follow_eq_cons hrun
      exact hnever 0 _ (by rw [hrest]; rfl)
    have hrun := hk.forwardSeen_eq (t := ⟨met hop index, k⟩) hh hs hr hc fun _ => hnot
    have hrun' := hk'.forwardSeen_eq (t := ⟨met' hop index, k'⟩) hh' hs' hr' hc' fun hadaptive => by
      rw [hminimal] at hadaptive
      cases hadaptive
    have hnext := hk.next hh hs hi
    have hnext' := hk'.next hh' hs' (by rwa [hp])
    obtain ⟨hport, hstep, hchannel⟩ := straight_of_same hp hn (table_of_same hp hm)
    rw [hport, hchannel] at hrun'
    rw [hstep, hchannel] at hnext'
    rw [fabric_of_same hp hn hm] at ih ⊢
    by_cases hhome : index = n.home host
    · have hpeer : (n.fabric.link index (n.straightPort index host slot)).peer = .server host := by
        rw [hhome, straightPort_home, link_home (Parameters.div_hosts_lt hh)]
      rw [Fabric.follow_of_server hrun hpeer, Fabric.follow_of_server hrun' hpeer]
      exact ⟨.cons ⟨rfl, rfl, rfl, _, rfl, rfl⟩ .nil, rfl⟩
    · obtain ⟨nextPort, kind, hlink⟩ := link_straightPort hi hh hs hhome
      have hpeer := congrArg Link.peer hlink
      rw [Fabric.follow_of_router hrun hpeer] at hnever ⊢
      rw [Fabric.follow_of_router hrun' hpeer]
      obtain ⟨hlegs, hending⟩ := ih (straightNext_lt hi hh hs) hnext hnext' fun i leg hleg => by
        rw [Nat.add_right_comm]
        exact hnever (i + 1) leg hleg
      exact ⟨.cons ⟨rfl, rfl, rfl, _, rfl, rfl⟩ hlegs, hending⟩

end Same

/-- **Adaptive routing that never turns is minimal routing.** In two networks that are wired alike, with a class
that is adaptive in one and minimal in the other, a packet of the one and a packet of the other that enter with the
same slot leave the same routers by the same ports, with the same labels and in channels at the same places of
their classes, as long as no comparison of the adaptive one favours its other choice. The states in which routers
are met do not matter, and neither do policies, thresholds and the other classes. With an infinite threshold no
comparison ever favours the other choice. -/
theorem undiverted_same_way (hp : n'.parameters = n.parameters) (hn : n'.numbering = n.numbering)
    (hm : n'.settings.linkMap = n.settings.linkMap) (hmet : n.Running met) (hmet' : n'.Running met')
    (hc : n.plan.get q.network = .ok c) (hadaptive : c.algorithm = .adaptive)
    (hc' : n'.plan.get q.network = .ok c') (hminimal : c'.algorithm = .minimal)
    (hs : q.source < n.parameters.hostCount) (hd : q.destination < n.parameters.hostCount) (limit : Nat) :
    ∃ j j', n.fabric.journey met limit q = .ok j ∧ n'.fabric.journey met' limit q = .ok j' ∧
      (j'.packet.slot = j.packet.slot → j.Undiverted met →
        List.Forall₂ (Leg.Alike c c') j.legs j'.legs ∧ j'.ending = j.ending) ∧
      (n.settings.threshold = Float.inf → j.Undiverted met) := by
  have hfabric := fabric_of_same hp hn hm
  have hi : n.home q.source < n.parameters.routerCount := Parameters.div_hosts_lt hs
  have hi' : n.home q.source < n'.parameters.routerCount := by rwa [hp]
  obtain ⟨k, hinject, hk⟩ := (hmet 0 _ hi).inject_spec hd hc
  obtain ⟨k', hinject', hk'⟩ := (hmet' 0 _ hi').inject_spec (by rwa [hp]) hc'
  have hjourney : n.fabric.journey met limit q = .ok ⟨k, (n.fabric.follow met limit 1 (n.home q.source) k).1,
      (n.fabric.follow met limit 1 (n.home q.source) k).2⟩ := by
    rw [Fabric.journey, fabric_parameters, hinject]
  have hjourney' : n'.fabric.journey met' limit q = .ok ⟨k', (n.fabric.follow met' limit 1 (n.home q.source) k').1,
      (n.fabric.follow met' limit 1 (n.home q.source) k').2⟩ := by
    rw [hfabric, Fabric.journey, fabric_parameters, hinject']
  refine ⟨_, _, hjourney, hjourney', fun hslot hnever => ?_, fun hinfinite i leg hleg => ?_⟩
  · have hfollows := hk.follows hc (by rw [hadaptive]; decide)
    have hfollows' := hk'.follows hc' (by rw [hminimal]; decide)
    have hserver : n'.server k'.dest = n.server k.dest := by
      rw [server, server, hk'.group_eq, hk.group_eq, hk'.router_eq, hk.router_eq, hk'.host_eq, hk.host_eq, hp]
    rw [hserver, show k'.slot = k.slot from hslot] at hfollows'
    have hserver_lt := hk.routable.server_lt (n.hosts_lt hs)
    have halike := follow_alike hp hn hm hmet hmet' hc hc' hminimal hserver_lt hk.slot_lt hi hfollows
      hfollows' fun i leg hleg => by
        rw [Nat.add_comm]
        exact hnever i leg hleg
    rwa [hfabric] at halike
  · have hlt := router_lt_of_follow hi hleg
    exact Router.not_diverts_of_inf ((hmet _ _ hlt).threshold_eq.trans hinfinite) _

/-- The slot that a packet enters with is a parallel link. -/
theorem slot_lt_of_journey (hmet : n.Running met) (hc : n.plan.get q.network = .ok c)
    (hs : q.source < n.parameters.hostCount) (hd : q.destination < n.parameters.hostCount) {j : Journey}
    (h : n.fabric.journey met limit q = .ok j) : j.packet.slot.toNat < n.parameters.links := by
  obtain ⟨k, hinject, hk⟩ := (hmet 0 _ (Parameters.div_hosts_lt hs)).inject_spec hd hc
  have hpacket := (Fabric.of_journey h).1
  rw [fabric_parameters, hinject] at hpacket
  rw [← Except.ok.inj hpacket]
  exact hk.slot_lt

/-- The small network with an adaptive class in the place of the minimal one, and an infinite threshold. -/
def adaptiveSample : Installation where
  settings := { sample.settings with algorithms := [.adaptive, .valiant, .adaptive], threshold := Float.inf }
  table := sample.table
  fabric := sample.fabric
  plan := ⟨#[⟨0, 3, .adaptive⟩, ⟨3, 3, .valiant⟩, ⟨6, 3, .adaptive⟩]⟩
  read :=
    ⟨.object "Dragonfly" [("hosts_per_router", .number 1), ("routers_per_group", .number 2),
        ("intergroup_per_router", .number 1), ("num_groups", .number 3), ("adaptive_threshold", .number Float.inf),
        ("algorithm", .array [.literal "adaptive-local", .literal "valiant", .literal "adaptive-local"])],
      ok_of_toOption (by decide +kernel)⟩
  table_eq := sample.table_eq
  fabric_eq := sample.fabric_eq
  plan_eq := ok_of_toOption (by decide +kernel)

/-- Between two groups, with the only slot there is. -/
theorem undiverted_same_way_sample :
    let met (_ index : Nat) := adaptiveSample.newRouter index adaptiveSample.plan.total
    let met' (_ index : Nat) := sample.newRouter index sample.plan.total
    ∃ j j', adaptiveSample.fabric.journey met 4 ⟨0, 5, 0, 64⟩ = .ok j ∧
      sample.fabric.journey met' 4 ⟨0, 5, 0, 64⟩ = .ok j' ∧ j'.packet.slot = j.packet.slot ∧ j.Undiverted met ∧
      List.Forall₂ (Leg.Alike ⟨0, 3, .adaptive⟩ ⟨0, 2, .minimal⟩) j.legs j'.legs ∧ j'.ending = j.ending := by
  intro met met'
  have hp : sample.parameters = adaptiveSample.parameters := rfl
  have hc : adaptiveSample.plan.get 0 = .ok ⟨0, 3, .adaptive⟩ := rfl
  have hc' : sample.plan.get 0 = .ok ⟨0, 2, .minimal⟩ := rfl
  have hmet : adaptiveSample.Running met := adaptiveSample.running_new
  have hmet' : sample.Running met' := sample.running_new
  obtain ⟨j, j', hj, hj', halike, hnever⟩ := undiverted_same_way (q := ⟨0, 5, 0, 64⟩) hp rfl rfl hmet hmet' hc rfl hc'
    rfl (by decide) (by decide) 4
  have hslot := slot_lt_of_journey hmet hc (by decide) (by decide) hj
  have hslot' := slot_lt_of_journey hmet' hc' (by decide) (by decide) hj'
  have hone : sample.parameters.links = 1 ∧ adaptiveSample.parameters.links = 1 := ⟨rfl, rfl⟩
  have hsame : j'.packet.slot = j.packet.slot := by
    apply UInt16.toNat_inj.mp
    omega
  exact ⟨j, j', hj, hj', hsame, hnever rfl, halike hsame (hnever rfl)⟩

end Installation

end DragonflyFabric
