import DragonflyFabric.Proofs.Journey.Circles
import DragonflyFabric.Proofs.Journey.Undiverted
import DragonflyFabric.Proofs.Router.Refusal

/-!
# Ways are weighed by the channels they lead through

A router that compares the two ways of an adaptive packet looks at one place of its arrays for each, before it knows by
which of them the packet leaves. The port and the channel of that place are those that the packet gets if it goes that
way: `Transit.exists_weighs`. As the two ways are looked up in a table made of a link map, their ports are ports of the
router.

On its journey a packet is weighed in the group it entered at, where it is still in the first channel of its class:
`Packet.Outbound`, one hop at a time. The next channel is one of the class as well, so that both places are in the
arrays and stand for no other port and channel of the router, as long as all places can be counted in a word.
`Transit.weighed_channels` joins the two.
-/

namespace DragonflyFabric

/-! ### Decisions -/

namespace Site

variable {s : Site} {seen : Congestion} {channel port group slot : Nat} {k k' : Packet}

/-- By what is seen of the buffers, one port costs more than the threshold allows against another. -/
def Outweighs (s : Site) (seen : Congestion) (channel straight around : Nat) : Prop :=
  s.threshold * seen.cost around (s.weighedChannel around channel) <
    seen.cost straight (s.weighedChannel straight channel)

/-- Where the choice is made, both ways have a port, and the packet takes the other way if its own port outweighs that
one. -/
theorem ports_of_adapt (h : s.adapt seen channel k = .ok k') :
    ∃ straight around, s.portToGroup k.dest.group.toNat k.slot.toNat none = .ok straight ∧
      s.portToGroup k.dest.alternate.toNat k.otherSlot.toNat none = .ok around ∧
      (¬s.Outweighs seen channel straight around → k' = k) ∧
      (s.Outweighs seen channel straight around → k' = k.turned) := by
  rw [adapt] at h
  obtain ⟨straight, hstraight, h⟩ := ok_of_bind_ok h
  obtain ⟨around, haround, h⟩ := ok_of_bind_ok h
  cases h
  exact ⟨straight, around, hstraight, haround, fun hnot => if_neg hnot, fun hcost => if_pos hcost⟩

/-- The port toward a group is a port of the router, if the table was made of a link map. -/
theorem lt_radix_of_portToGroup {m : LinkMap} (hm : m.Complete s.parameters s.table)
    (h : s.portToGroup group slot none = .ok port) : port < s.parameters.radix := by
  have hrouters := hm.counts.routers_pos
  have hhere : s.position < s.parameters.routers := Parameters.positionOf_lt hrouters _
  rw [portToGroup] at h
  dsimp only at h
  split at h
  · cases h
  obtain ⟨exit, hlookup, h⟩ := ok_of_bind_ok h
  rw [Option.getD_none, if_neg (Nat.not_le.mpr hhere)] at h
  obtain ⟨hrow, hslot⟩ := ExitTable.View.lt_of_lookup hlookup
  obtain ⟨hrows, hslots⟩ := ExitTable.View.size_of_ofLinkMap hm.table_eq
  obtain ⟨position, index, hp, hi, -, hentry⟩ :=
    ExitTable.View.lookup_of_ofLinkMap hm.table_eq (hrows ▸ hrow) (hslots ▸ hslot)
  obtain ⟨hrouter, hport⟩ := hm.ofPlace_toNat hp hi
  rw [hlookup] at hentry
  cases hentry
  rw [hrouter, hport] at h
  cases h
  split
  · exact Parameters.lt_radix_of_classOf? hrouters (hm.counts.classOf?_exitPort hi)
  · next haway =>
    exact Parameters.lt_radix_of_classOf? hrouters (Parameters.classOf?_portToSibling (Ne.symm haway) hhere hp)

end Site

namespace Transit

variable {t t' : Transit} {seen : Congestion} {channel : Nat} {egress : Egress}

/-- The two ways of the packet are compared here: it is adaptive, in its source group, and has not turned yet. -/
def Compares (t : Transit) (channel : Nat) : Prop :=
  ∃ network traffic, t.router.site.plan.classOf channel = .ok (network, traffic) ∧
    t.router.site.mayTurn traffic.algorithm (t.router.site.stage t.packet) t.turnHome.packet = true

/-- The packet leaves by one of two ports, which are those of its two ways, and in the channel by which that port was
weighed. It has turned to its other choice if that is where it goes, and has not otherwise. -/
structure Weighs (t : Transit) (seen : Congestion) (channel : Nat) (egress : Egress) (t' : Transit)
    (straight around : Nat) : Prop where
  straight_eq : t.router.site.portToGroup t.turnHome.packet.dest.group.toNat t.turnHome.packet.slot.toNat none =
    .ok straight
  around_eq : t.router.site.portToGroup t.turnHome.packet.dest.alternate.toNat t.turnHome.packet.otherSlot.toNat none =
    .ok around
  kept : ¬t.router.site.Outweighs seen channel straight around →
    egress.port = straight ∧ egress.channel = t.router.site.weighedChannel straight channel ∧
      t'.packet = { t.turnHome.packet with channel := egress.channel }
  detour : t.router.site.Outweighs seen channel straight around →
    egress.port = around ∧ egress.channel = t.router.site.weighedChannel around channel ∧
      t'.packet = { t.turnHome.packet.turned with channel := egress.channel }

/-- The address of a packet that is let go was one that packets can be sent to. -/
theorem checkDestination_of_forward (h : (forward channel seen).run t = (.ok egress, t')) :
    t.router.site.checkDestination t.packet.dest = .ok () := by
  rw [forward_eq] at h
  split at h
  · cases h
  · split at h
    · cases h
    · next hdest => exact hdest

/-- Outside the group of its destination, a packet leaves by the port toward the group that it was decided to head
for. -/
theorem away_of_forward (haway : t.router.site.group ≠ t.packet.dest.group.toNat)
    (h : (forward channel seen).run t = (.ok egress, t')) :
    ∃ network traffic k, t.router.site.plan.classOf channel = .ok (network, traffic) ∧
      t.decided traffic.algorithm channel seen = .ok k ∧
      t.router.site.portToGroup k.dest.target.toNat k.slot.toNat none = .ok egress.port ∧
      egress.channel = t.router.site.channelBehind egress.port channel ∧
      t'.packet = { k with channel := egress.channel } := by
  obtain ⟨network, traffic, port, kind, t₁, hclass, hport, -, -, rfl, hchannel, rfl⟩ := ok_of_forward h
  rw [choosePort_run_away haway] at hport
  cases hdecided : t.decided traffic.algorithm channel seen with
  | error f =>
    rw [hdecided] at hport
    cases hport
  | ok k =>
    rw [hdecided] at hport
    obtain ⟨hway, rfl⟩ := Prod.mk.inj hport
    exact ⟨network, traffic, k, hclass, hdecided, hway, hchannel, by rw [hchannel]⟩

/-- **A port is weighed by the channel in which the packet then leaves by it**, whichever port that is. -/
theorem exists_weighs (hhosts : 0 < t.router.site.parameters.hosts) (hrouters : 0 < t.router.site.parameters.routers)
    (hcompares : t.Compares channel) (h : (forward channel seen).run t = (.ok egress, t')) :
    ∃ straight around, t.Weighs seen channel egress t' straight around := by
  obtain ⟨network, traffic, hclass, hmay⟩ := hcompares
  obtain ⟨-, hstage, htarget, -, -⟩ := Site.of_mayTurn hmay
  obtain ⟨_, _, k, hclass', hdecided, hway, hchannel, hpacket⟩ := away_of_forward (Stage.of_eq_atSource hstage).1 h
  rw [hclass] at hclass'
  cases hclass'
  rw [decided, if_pos hmay] at hdecided
  obtain ⟨straight, around, hstraight, haround, hkept, hturned⟩ := Site.ports_of_adapt hdecided
  refine ⟨straight, around, hstraight, haround, fun hnot => ?_, fun hcost => ?_⟩
  · obtain rfl := hkept hnot
    rw [htarget, hstraight] at hway
    obtain rfl := Except.ok.inj hway
    exact ⟨rfl, hchannel.trans (Site.weighedChannel_eq hhosts hrouters _ _).symm, hpacket⟩
  · obtain rfl := hturned hcost
    obtain rfl := Except.ok.inj (haround.symm.trans hway)
    exact ⟨rfl, hchannel.trans (Site.weighedChannel_eq hhosts hrouters _ _).symm, hpacket⟩

end Transit

/-! ### Out of the source group -/

section Hops

variable {n : Installation} {c : TrafficClass} {index source : Nat} {k : Packet} {r : Router} {q : Request}

namespace Transit

variable {t t' : Transit} {seen : Congestion} {channel next nextPort : Nat} {egress : Egress}
  (hr : t.router.InService n index) (h : (forward channel seen).run t = (.ok egress, t'))

include hr h

/-- In the group of its destination no packet leaves by a global port. -/
theorem classOf?_of_forward_home (hhere : n.parameters.groupOf index = t.packet.dest.group.toNat) :
    n.parameters.classOf? egress.port ≠ some .exit := by
  obtain ⟨kind, hexit, hkind⟩ := Installation.classOf?_portHome index (hr.routable (checkDestination_of_forward h))
  obtain ⟨_, _, _, _, _, -, hport, -, -, rfl, -, -⟩ := ok_of_forward h
  rw [choosePort_home hr hhere] at hport
  rw [← Except.ok.inj (Prod.mk.inj hport).1, hkind]
  exact fun heq => hexit (Option.some.inj heq)

/-- By a global port a packet comes to the group that it heads for. -/
theorem groupOf_next_of_exit (hexit : n.parameters.classOf? egress.port = some .exit)
    (hpeer : (n.fabric.link index egress.port).peer = .router next nextPort) :
    n.parameters.groupOf next = t'.packet.dest.target.toNat := by
  have haway : t.router.site.group ≠ t.packet.dest.group.toNat := by
    rw [hr.group_eq]
    exact fun hhere => classOf?_of_forward_home hr h hhere hexit
  obtain ⟨_, _, k, -, -, hway, -, hpacket⟩ := away_of_forward haway h
  obtain ⟨hahead, hport⟩ := Installation.Ahead.of_portToGroup hr hway
  rw [hport] at hexit hpeer
  rw [hpacket]
  exact hahead.groupOf_next_of_exit hexit hpeer

/-- By any other port it keeps its channel. -/
theorem channel_of_ne_exit (hexit : n.parameters.classOf? egress.port ≠ some .exit) : t'.packet.channel = channel := by
  obtain ⟨_, _, _, _, _, -, -, -, -, rfl, -, rfl⟩ := ok_of_forward h
  show t.router.site.channelBehind _ _ = _
  rw [Site.channelBehind, hr.parameters_eq, if_neg hexit]

end Transit

namespace Packet

/-- A packet on its way from a group. As long as it is in that group, which is not the one of its destination, it is in
the first channel of its class. -/
structure Outbound (n : Installation) (c : TrafficClass) (source index : Nat) (k : Packet) : Prop where
  index_lt : index < n.parameters.routerCount
  origin_eq : k.origin.toNat = source
  wellAimed : k.WellAimed
  channel_eq : k.dest.group.toNat ≠ source → n.parameters.groupOf index = source → k.channel = c.start

/-- A packet that has left its source group does not come back, and one that is still there has stayed in its
channel. -/
theorem Outbound.next {next nextPort : Nat} {t : Transit} {egress : Egress} (hr : r.InService n index)
    (hk : k.Outbound n c source index) (h : (Transit.forwardSeen k.channel).run ⟨r, k⟩ = (.ok egress, t))
    (hpeer : (n.fabric.link index egress.port).peer = .router next nextPort) : t.packet.Outbound n c source next := by
  let v : Visit := ⟨r, k.channel, none⟩
  have hpass : v.pass k = t.packet := congrArg (fun ran => ran.2.packet) h
  obtain ⟨hkeeps, -⟩ := v.pass_redirects hk.wellAimed
  have haimed := v.wellAimed_pass hk.wellAimed
  rw [hpass] at hkeeps haimed
  have horigin : t.packet.origin.toNat = source := by rw [hkeeps.origin_eq, hk.origin_eq]
  refine ⟨Installation.next_lt hk.index_lt hpeer, horigin, haimed, ?_⟩
  intro haway hnext
  obtain ⟨seen, hseen⟩ := hr.exists_congestion
  rw [Transit.forwardSeen_run hseen] at h
  by_cases hexit : n.parameters.classOf? egress.port = some .exit
  · -- It would head for its source group, which a well aimed packet does only if its destination is there.
    have htarget : t.packet.dest.target.toNat = source := by
      rw [← Transit.groupOf_next_of_exit (t := ⟨r, k⟩) hr h hexit hpeer, hnext]
    have hhome := haimed (UInt32.toNat_inj.mp (htarget.trans horigin.symm))
    exact absurd (by rw [← hhome, htarget]) haway
  · rw [Installation.groupOf_next_of_ne_exit n hexit hpeer] at hnext
    rw [Transit.channel_of_ne_exit (t := ⟨r, k⟩) hr h hexit]
    exact hk.channel_eq (by rwa [← hkeeps.group_eq]) hnext

/-- A packet that was made of a request starts on its way. -/
theorem outbound_of_inject (hr : r.InService n index) (hc : n.plan.get q.network = .ok c)
    (h : (r.inject q).1 = .ok k) : k.Outbound n c (n.parameters.groupOf index) index := by
  have hd : q.destination < n.parameters.hostCount := by
    rw [← hr.parameters_eq]
    exact Router.destination_lt_of_inject h
  have haimed := Router.wellAimed_of_inject hr.groups_le h
  obtain ⟨_, hinject, hk⟩ := hr.inject_spec hd hc
  rw [h] at hinject
  cases hinject
  exact ⟨hr.index_lt, hk.origin_eq, haimed, fun _ _ => hk.channel_eq⟩

end Packet

end Hops

/-! ### Places in the arrays -/

namespace Router

variable {r : Router} {seen : Congestion} {port channel : Nat}

/-- The place of a port and a channel is one of the arrays, and that of no other port and channel. -/
structure OwnPlace (r : Router) (seen : Congestion) (port channel : Nat) : Prop where
  place_lt : seen.place port channel < r.site.parameters.radix * r.site.channels
  only : ∀ port' channel', port' < r.site.parameters.radix → channel' < r.site.channels →
    seen.place port' channel' = seen.place port channel → port' = port ∧ channel' = channel

/-- The places of the ports and channels that there are do not wrap, if there are no more of them than words. -/
theorem place_eq (hwords : r.site.parameters.radix * r.site.channels ≤ 2 ^ 64) (hseen : r.congestion = .ok seen)
    (hport : port < r.site.parameters.radix) (hchannel : channel < r.site.channels) :
    seen.place port channel = port * r.site.channels + channel := by
  rw [Congestion.place, channels_of_congestion hseen]
  exact Word.wrap_of_lt (Nat.lt_of_lt_of_le (Grid.place_lt hport hchannel) hwords)

theorem ownPlace (hwords : r.site.parameters.radix * r.site.channels ≤ 2 ^ 64) (hseen : r.congestion = .ok seen)
    (hport : port < r.site.parameters.radix) (hchannel : channel < r.site.channels) :
    r.OwnPlace seen port channel := by
  constructor
  · rw [place_eq hwords hseen hport hchannel]
    exact Grid.place_lt hport hchannel
  · intro port' channel' hport' hchannel' hplace
    rw [place_eq hwords hseen hport' hchannel', place_eq hwords hseen hport hchannel] at hplace
    exact Grid.place_inj hchannel' hchannel hplace

end Router

namespace Installation

variable {n : Installation} {c : TrafficClass} {index network source group slot port : Nat} {r : Router} {k : Packet}
  {seen : Congestion}

/-- **In the first channel of a class with another one, the port toward a group is weighed by a channel of the class**,
at a place of its own. -/
theorem ownPlace_of_portToGroup (hr : r.InService n index) (hc : n.plan.get network = .ok c)
    (hchannels : 1 < c.algorithm.channels) (hseen : r.congestion = .ok seen)
    (h : r.site.portToGroup group slot none = .ok port) :
    c.contains (r.site.weighedChannel port c.start) = true ∧
      (r.site.parameters.radix * r.site.channels ≤ 2 ^ 64 →
        r.OwnPlace seen port (r.site.weighedChannel port c.start)) := by
  obtain ⟨hahead, rfl⟩ := Ahead.of_portToGroup hr h
  have hhosts : 0 < r.site.parameters.hosts := hr.parameters_eq ▸ n.checked.hosts_pos
  have hrouters : 0 < r.site.parameters.routers := hr.parameters_eq ▸ n.checked.routers_pos
  have hport : n.portToward index group slot < r.site.parameters.radix :=
    Parameters.lt_radix_of_classOf? hrouters (hr.parameters_eq ▸ hahead.classOf?_portToward)
  have hin : c.contains (n.channelToward index group slot c.start) = true := by
    rw [channelToward]
    split
    · exact n.contains_add hc hchannels
    · exact n.contains_add hc (Nat.zero_lt_of_lt hchannels)
  rw [Site.weighedChannel_eq hhosts hrouters, hahead.channelBehind_eq hr]
  refine ⟨hin, fun hwords => Router.ownPlace hwords hseen hport ?_⟩
  calc n.channelToward index group slot c.start < c.stop := (TrafficClass.contains_iff.mp hin).2
    _ ≤ n.plan.total := ChannelPlan.stop_le_total n.plan_eq hc
    _ ≤ r.site.channels := hr.total_le

/-- A packet that is weighed on its way is in the first channel of its class, and its class has others. -/
theorem of_compares (hr : r.InService n index) (hc : n.plan.get network = .ok c) (hk : k.Outbound n c source index)
    (h : Transit.Compares ⟨r, k⟩ k.channel) : k.channel = c.start ∧ 1 < c.algorithm.channels := by
  obtain ⟨_, traffic, hclass, hmay⟩ := h
  obtain ⟨halgorithm, hstage, -, -, -⟩ := Site.of_mayTurn hmay
  obtain ⟨haway, hsource⟩ := Stage.of_eq_atSource (hr.stage_eq ▸ hstage)
  have hstart : k.channel = c.start := by
    refine hk.channel_eq (fun hdest => haway ?_) (hsource.trans hk.origin_eq)
    rw [hsource, hk.origin_eq, hdest]
  refine ⟨hstart, ?_⟩
  have hin : c.contains k.channel = true := by
    have hpos : 0 < c.algorithm.channels := by cases c.algorithm <;> decide
    rw [hstart]
    exact n.contains_add hc hpos
  rw [hr.classOf_eq hc hin] at hclass
  cases hclass
  rw [halgorithm]
  decide

end Installation

/-- On its way from a group, a packet is weighed by channels of its class, at places of their own. -/
theorem Packet.Outbound.exists_weighs {n : Installation} {c : TrafficClass} {index network source : Nat} {r : Router}
    {k : Packet} {t : Transit} {egress : Egress} (hr : r.InService n index) (hc : n.plan.get network = .ok c)
    (hk : k.Outbound n c source index) (hcompares : Transit.Compares ⟨r, k⟩ k.channel)
    (h : (Transit.forwardSeen k.channel).run ⟨r, k⟩ = (.ok egress, t)) :
    ∃ seen straight around, r.congestion = .ok seen ∧ Transit.Weighs ⟨r, k⟩ seen k.channel egress t straight around ∧
      ∀ port ∈ [straight, around],
        c.contains (r.site.weighedChannel port k.channel) = true ∧
          (r.site.parameters.radix * r.site.channels ≤ 2 ^ 64 →
            r.OwnPlace seen port (r.site.weighedChannel port k.channel)) := by
  obtain ⟨seen, hseen⟩ := hr.exists_congestion
  rw [Transit.forwardSeen_run hseen] at h
  have hhosts : 0 < r.site.parameters.hosts := hr.parameters_eq ▸ n.checked.hosts_pos
  have hrouters : 0 < r.site.parameters.routers := hr.parameters_eq ▸ n.checked.routers_pos
  obtain ⟨straight, around, hweighs⟩ := Transit.exists_weighs hhosts hrouters hcompares h
  obtain ⟨hstart, hchannels⟩ := Installation.of_compares hr hc hk hcompares
  refine ⟨seen, straight, around, hseen, hweighs, ?_⟩
  intro port hport
  rw [hstart]
  rcases List.mem_pair.mp hport with rfl | rfl
  · exact Installation.ownPlace_of_portToGroup hr hc hchannels hseen hweighs.straight_eq
  · exact Installation.ownPlace_of_portToGroup hr hc hchannels hseen hweighs.around_eq

/-! ### Both together -/

namespace Transit

/-- **What is weighed is what is taken.** Over a table made of a link map, in any group of at most 65536 routers with at
most 65536 ports: when the two ways of a packet have been compared and it is let go, it leaves by the port of one of
them, and in the channel by which that port was weighed; the ports of both are ports of the router. On the journey of a
packet that entered, both channels are of its class, and each stands in the arrays of the router at a place that no
other port and channel of the router has, as long as the places can be counted in a word. -/
theorem weighed_channels :
    (∀ (t t' : Transit) (m : LinkMap) (seen : Congestion) (channel : Nat) (egress : Egress),
      t.router.site.parameters.check = .ok t.router.site.parameters →
      ExitTable.View.ofLinkMap t.router.site.parameters m = .ok t.router.site.table →
      t.router.site.parameters.routers ≤ 65536 → t.router.site.parameters.radix ≤ 65536 →
      t.Compares channel → (forward channel seen).run t = (.ok egress, t') →
      ∃ straight around, t.Weighs seen channel egress t' straight around ∧
        straight < t.router.site.parameters.radix ∧ around < t.router.site.parameters.radix) ∧
    ∀ (n : Installation) (met : Nat → Nat → Router) (q : Request) (c : TrafficClass) (limit : Nat) (j : Journey),
      n.Running met → q.source < n.parameters.hostCount → n.plan.get q.network = .ok c →
      n.fabric.journey met limit q = .ok j →
      ∀ i leg, j.legs[i]? = some leg →
        let r := met (i + 1) leg.router
        Compares ⟨r, leg.before⟩ leg.before.channel →
        ∃ seen t' straight around, r.congestion = .ok seen ∧ t'.packet = leg.after ∧
          Weighs ⟨r, leg.before⟩ seen leg.before.channel leg.egress t' straight around ∧
          ∀ port ∈ [straight, around],
            c.contains (r.site.weighedChannel port leg.before.channel) = true ∧
              (r.site.parameters.radix * r.site.channels ≤ 2 ^ 64 →
                r.OwnPlace seen port (r.site.weighedChannel port leg.before.channel)) := by
  constructor
  · intro t t' m seen channel egress hcheck htable hrouters hradix hcompares hrun
    have hcounts := (Parameters.checked_of_check hcheck).2
    have hm : m.Complete t.router.site.parameters t.router.site.table := ⟨hcounts, hrouters, hradix, htable⟩
    obtain ⟨straight, around, hweighs⟩ := exists_weighs hcounts.hosts_pos hcounts.routers_pos hcompares hrun
    exact ⟨straight, around, hweighs, Site.lt_radix_of_portToGroup hm hweighs.straight_eq,
      Site.lt_radix_of_portToGroup hm hweighs.around_eq⟩
  · intro n met q c limit j hmet hs hc hj i leg hleg r hcompares
    obtain ⟨hinject, hlegs⟩ := Fabric.of_journey hj
    rw [Installation.fabric_parameters] at hinject hlegs
    rw [hlegs] at hleg
    have hentry : (met 0 (n.home q.source)).InService n (n.home q.source) := hmet 0 _ (Parameters.div_hosts_lt hs)
    obtain ⟨hk, t', hrun, hafter⟩ := Fabric.of_follow
      (fun hop index _ _ _ _ _ hk hrun hpeer => hk.next (hmet hop index hk.index_lt) hrun hpeer)
      (Packet.outbound_of_inject hentry hc hinject) hleg
    rw [Nat.add_comm 1 i] at hrun
    obtain ⟨seen, straight, around, hseen, hweighs, hplaces⟩ :=
      hk.exists_weighs (hmet _ _ hk.index_lt) hc hcompares hrun
    exact ⟨seen, t', straight, around, hseen, hafter, hweighs, hplaces⟩

/-- An adaptive packet of the small network that goes around by the exit of its router, because the port to the other
router is crowded; and one that enters where all exits are crowded. -/
theorem weighed_channels_sample :
    let n := Installation.sample
    let t : Transit := ⟨n.newRouter 0 8, ⟨⟨0, 5, 2, 64⟩, 5, 0, ⟨2, 2, 1, 1, 0⟩, 0, 0⟩⟩
    let busy : Congestion := ⟨#[], (Array.replicate 13 0).push 10, 8⟩
    t.Compares 5 ∧
      (∃ t' straight around, (forward 5 busy).run t = (.ok ⟨2, 6, 1⟩, t') ∧
        t.Weighs busy 5 ⟨2, 6, 1⟩ t' straight around ∧ straight < 3 ∧ around < 3) ∧
      ∃ j leg, n.fabric.journey Installation.crowded 1 ⟨0, 4, 2, 64⟩ = .ok j ∧ j.legs[0]? = some leg ∧
        Compares ⟨Installation.crowded 1 leg.router, leg.before⟩ leg.before.channel ∧
        ∃ seen t' straight around, t'.packet = leg.after ∧
          Weighs ⟨Installation.crowded 1 leg.router, leg.before⟩ seen leg.before.channel leg.egress t' straight around ∧
          ∀ port ∈ [straight, around],
            (Installation.crowded 1 leg.router).OwnPlace seen port
              ((Installation.crowded 1 leg.router).site.weighedChannel port leg.before.channel) := by
  intro n t busy
  obtain ⟨hany, hjourneys⟩ := weighed_channels
  have hcompares : t.Compares 5 := ⟨2, ⟨5, 3, .adaptive⟩, ok_of_toOption (by decide), by decide +kernel⟩
  have hegress : ((forward 5 busy).run t).1 = .ok ⟨2, 6, 1⟩ := ok_of_toOption (by decide +kernel)
  have hrun : (forward 5 busy).run t = (.ok ⟨2, 6, 1⟩, ((forward 5 busy).run t).2) := Prod.ext hegress rfl
  obtain ⟨straight, around, hweighs, hlt, hlt'⟩ := hany t _ n.settings.linkMap busy 5 _ rfl n.table_eq (by decide)
    (by decide) hcompares hrun
  refine ⟨hcompares, ⟨_, straight, around, hrun, hweighs, hlt, hlt'⟩, ?_⟩
  have hlegs : ((n.fabric.journey Installation.crowded 1 ⟨0, 4, 2, 64⟩).map fun j => j.legs.map fun leg =>
      let met : Transit := ⟨Installation.crowded 1 leg.router, leg.before⟩
      (leg.before.channel, met.router.site.plan.classOf leg.before.channel |>.toOption,
        met.router.site.mayTurn .adaptive (met.router.site.stage leg.before) met.turnHome.packet)).toOption =
      some [(5, some (2, ⟨5, 3, .adaptive⟩), true)] := by
    decide +kernel
  cases hj : n.fabric.journey Installation.crowded 1 ⟨0, 4, 2, 64⟩ with
  | error why =>
    rw [hj] at hlegs
    cases hlegs
  | ok j =>
    rw [hj] at hlegs
    obtain ⟨leg, hleg, hmay⟩ := List.map_eq_singleton_iff.mp (Option.some.inj hlegs)
    simp only [Prod.mk.injEq] at hmay
    have hcompares : Compares ⟨Installation.crowded 1 leg.router, leg.before⟩ leg.before.channel :=
      ⟨2, ⟨5, 3, .adaptive⟩, ok_of_toOption hmay.2.1, hmay.2.2⟩
    have hfirst : j.legs[0]? = some leg := by rw [hleg]; rfl
    have hwords : n.parameters.radix * 8 ≤ 2 ^ 64 := by decide
    obtain ⟨seen, t', straight, around, -, hafter, hweighs, hplaces⟩ := hjourneys n Installation.crowded ⟨0, 4, 2, 64⟩
      ⟨5, 3, .adaptive⟩ 1 j Installation.running_crowded (by decide) rfl hj 0 leg hfirst hcompares
    exact ⟨j, leg, rfl, hfirst, hcompares, seen, t', straight, around, hafter, hweighs,
      fun port hport => (hplaces port hport).2 hwords⟩

end Transit

end DragonflyFabric
