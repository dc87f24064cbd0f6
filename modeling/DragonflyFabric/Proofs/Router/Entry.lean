import DragonflyFabric.Proofs.Router.Steps

/-!
# Packets as they enter

What a router in service makes of a request: `inject_spec`. The packet is in the first channel of its class,
its slots are parallel links, and one of three ways is open to it, which depend on the algorithm and on
whether there is an intermediate group at all.
-/

namespace DragonflyFabric

variable {n : Installation} {c : TrafficClass} {index : Nat} {q : Request} {k : Packet} {r : Router}

/-! ### The choices of any router -/

/-- What the choices for a packet from the group `here` to another one make of its address. -/
inductive Address.Chosen (p : Parameters) (here : Nat) (algorithm : Algorithm) (dest : Address) : Address → Prop
  /-- It goes straight, and knows no other way. -/
  | straight (few : algorithm = .minimal ∨ p.groups < 3) : Chosen p here algorithm dest dest
  /-- It goes through an intermediate group. -/
  | around {through : UInt32} (algorithm_eq : algorithm = .valiant) (through_lt : through.toNat < p.groups)
      (ne_here : through.toNat ≠ here) (ne_group : through ≠ dest.group) :
      Chosen p here algorithm dest { dest with target := through, alternate := through }
  /-- It goes straight, and may turn to an intermediate group. -/
  | either {through : UInt32} (algorithm_eq : algorithm = .adaptive) (through_lt : through.toNat < p.groups)
      (ne_here : through.toNat ≠ here) (ne_group : through ≠ dest.group) :
      Chosen p here algorithm dest { dest with alternate := through }

/-- **The choices for a packet to another group are made without a failure**: what is drawn as an intermediate group
can always be one. The slots are parallel links. -/
theorem Router.Bounded.choose_spec {t : Transit} (hr : t.router.Bounded)
    (hgroups : t.router.site.parameters.groups ≤ 2 ^ 32) (horigin : t.packet.origin.toNat = t.router.site.group)
    (hd : t.packet.dest.group.toNat < t.router.site.parameters.groups) (algorithm : Algorithm) :
    ∃ router dest slot otherSlot, (Transit.choose algorithm t.packet.dest.group.toNat).run t =
        (.ok (), ⟨router, { t.packet with dest := dest, slot := slot, otherSlot := otherSlot }⟩) ∧
      slot.toNat < t.router.site.parameters.links ∧ otherSlot.toNat < t.router.site.parameters.links ∧
      t.packet.dest.Chosen t.router.site.parameters t.router.site.group algorithm dest := by
  obtain ⟨hslot, hafter⟩ := hr.chooseSlot t.packet.request.source t.packet.dest.group.toNat
  have hsite := site_chooseSlot t.router t.packet.request.source t.packet.dest.group.toNat
  rw [Transit.choose_run]
  dsimp only [Transit.takeSlot]
  generalize t.router.chooseSlot t.packet.request.source t.packet.dest.group.toNat = drawn at hslot hafter hsite ⊢
  by_cases hminimal : algorithm = .minimal
  · rw [if_pos hminimal]
    exact ⟨_, _, _, _, rfl, hslot, hslot, .straight (.inl hminimal)⟩
  rw [if_neg hminimal]
  -- The intermediate group is drawn after the slot of the straight way.
  have hcases := drawIntermediate_cases hafter.group_lt (hsite.symm ▸ hd)
  have hthird := hafter.drawIntermediate t.packet.dest.group.toNat
  have hkept := (site_drawIntermediate drawn.2 t.packet.dest.group.toNat).trans hsite
  rw [hsite] at hcases
  generalize drawn.2.drawIntermediate t.packet.dest.group.toNat = third at hcases hthird hkept ⊢
  obtain ⟨_, router⟩ := third
  rcases hcases with ⟨rfl, hfew⟩ | ⟨through, rfl, hlt, hhere, hgroup⟩
  · exact ⟨_, _, _, _, rfl, hslot, hslot, .straight (.inr hfew)⟩
  have hto : (UInt32.ofNat through).toNat = through := UInt32.toNat_ofNat_of_lt' (Nat.lt_of_lt_of_le hlt hgroups)
  have hne : UInt32.ofNat through ≠ t.packet.dest.group := fun heq => hgroup (by rw [← heq, hto])
  have hother := (hthird.chooseSlot t.packet.request.source through).1
  rw [hkept] at hother
  dsimp only
  cases algorithm with
  | minimal => exact absurd rfl hminimal
  | valiant =>
    rw [if_pos rfl, Transit.divert_run, if_neg]
    · exact ⟨_, _, _, _, rfl, hother, hslot,
        .around rfl (lt_of_eq_of_lt hto hlt) (ne_of_eq_of_ne hto hhere) hne⟩
    · dsimp only
      rw [horigin, hkept]
      omega
  | adaptive =>
    rw [if_neg (by decide)]
    exact ⟨_, _, _, _, rfl, hslot, hother,
      .either rfl (lt_of_eq_of_lt hto hlt) (ne_of_eq_of_ne hto hhere) hne⟩

/-! ### Packets in a network -/

namespace Packet

/-- The ways of a packet from a group, as they are chosen when it enters. -/
inductive Way (n : Installation) (algorithm : Algorithm) (source : Nat) (k : Packet) : Prop
  /-- It goes straight to its group, and knows no other way. -/
  | straight (target_eq : k.dest.target = k.dest.group) (alternate_eq : k.dest.alternate = k.dest.group)
      (few : algorithm = .minimal ∨ n.parameters.groups < 3 ∨ source = k.dest.group.toNat)
  /-- It goes through an intermediate group. -/
  | around (away : source ≠ k.dest.group.toNat) (algorithm_eq : algorithm = .valiant)
      (target_eq : k.dest.target = k.dest.alternate)
      (alternate_lt : k.dest.alternate.toNat < n.parameters.groups)
      (ne_source : k.dest.alternate.toNat ≠ source) (ne_group : k.dest.alternate ≠ k.dest.group)
  /-- It goes straight, and may turn to an intermediate group. -/
  | either (algorithm_eq : algorithm = .adaptive) (target_eq : k.dest.target = k.dest.group)
      (alternate_lt : k.dest.alternate.toNat < n.parameters.groups)
      (ne_source : k.dest.alternate.toNat ≠ source) (ne_group : k.dest.alternate ≠ k.dest.group)

/-- A packet that was made of a request at a router: from the group of the router, to the host that was
asked for, in the first channel of its class. -/
structure Made (n : Installation) (c : TrafficClass) (index : Nat) (q : Request) (k : Packet) : Prop where
  routable : k.Routable n
  channel_eq : k.channel = c.start
  origin_eq : k.origin.toNat = n.parameters.groupOf index
  group_eq : k.dest.group.toNat = n.parameters.groupOf (q.destination / n.parameters.hosts)
  router_eq : k.dest.router = UInt32.ofNat (n.parameters.positionOf (q.destination / n.parameters.hosts))
  host_eq : k.dest.host = UInt32.ofNat (q.destination % n.parameters.hosts)
  slot_lt : k.slot.toNat < n.parameters.links
  otherSlot_lt : k.otherSlot.toNat < n.parameters.links

/-- Such a packet with its way chosen. -/
structure Entered (n : Installation) (c : TrafficClass) (index : Nat) (q : Request) (k : Packet) : Prop
    extends Made n c index q k where
  way : k.Way n c.algorithm (n.parameters.groupOf index)

theorem Made.choose (h : k.Made n c index q) {target : UInt32} (alternate : UInt32) {slot otherSlot : UInt16}
    (ht : target.toNat < n.parameters.groups) (hs : slot.toNat < n.parameters.links)
    (ho : otherSlot.toNat < n.parameters.links) :
    ({ k with dest := { k.dest with target := target, alternate := alternate }, slot := slot,
              otherSlot := otherSlot } : Packet).Made n c index q where
  routable := ⟨h.routable.group_lt, ht, h.routable.router_lt, h.routable.host_lt⟩
  channel_eq := h.channel_eq
  origin_eq := h.origin_eq
  group_eq := h.group_eq
  router_eq := h.router_eq
  host_eq := h.host_eq
  slot_lt := hs
  otherSlot_lt := ho

/-- Where thirty-two bits hold the parts of its address, nothing was cut off. -/
theorem Made.toNat_router (h : k.Made n c index q) (hrouters : n.parameters.routers ≤ 2 ^ 32) :
    k.dest.router.toNat = n.parameters.positionOf (q.destination / n.parameters.hosts) := by
  have hposition := Parameters.positionOf_lt n.checked.routers_pos (q.destination / n.parameters.hosts)
  rw [h.router_eq, UInt32.toNat_ofNat_of_lt' (lt_of_lt_of_le hposition hrouters)]

theorem Made.toNat_host (h : k.Made n c index q) (hhosts : n.parameters.hosts ≤ 2 ^ 32) :
    k.dest.host.toNat = q.destination % n.parameters.hosts := by
  have hhost := Nat.mod_lt q.destination n.checked.hosts_pos
  rw [h.host_eq, UInt32.toNat_ofNat_of_lt' (lt_of_lt_of_le hhost hhosts)]

/-- It is in the first channel of its class, and there is one for each group that it may leave. -/
theorem Made.contains_add (h : k.Made n c index q) {network crossed : Nat} (hc : n.plan.get network = .ok c)
    (hlt : crossed < c.algorithm.channels) : c.contains (k.channel + crossed) = true := by
  rw [h.channel_eq]
  exact n.contains_add hc hlt

end Packet

theorem Installation.toNat_group {group : Nat} (h : group < n.parameters.groups) :
    (UInt32.ofNat group).toNat = group := by
  have hgroups := n.groups_lt
  exact UInt32.toNat_ofNat_of_lt' (by rw [UInt32.size]; omega)

namespace Router.InService

/-- A host of the network is located at an address that heads straight for its group. -/
theorem made_enter (hr : r.InService n index) (hd : q.destination < n.parameters.hostCount) (c : TrafficClass) :
    ∃ dest, n.parameters.locate q.destination = .ok dest ∧ dest.target = dest.group ∧
      dest.alternate = dest.group ∧ (Transit.enter r q c.start dest).packet.Made n c index q := by
  refine ⟨_, Parameters.locate_of_lt (n.hosts_lt hd) hd, rfl, rfl, ?_⟩
  have hgroup := Parameters.groupOf_lt (Parameters.div_hosts_lt hd)
  have hto := Installation.toNat_group hgroup
  refine ⟨⟨?_, ?_, ?_, ?_⟩, rfl, ?_, hto, rfl, rfl, n.checked.links_pos, n.checked.links_pos⟩
  · exact lt_of_eq_of_lt hto hgroup
  · exact lt_of_eq_of_lt hto hgroup
  · exact lt_of_le_of_lt (Nat.mod_le _ _) (Parameters.positionOf_lt n.checked.routers_pos _)
  · exact lt_of_le_of_lt (Nat.mod_le _ _) (Nat.mod_lt _ n.checked.hosts_pos)
  · show (UInt32.ofNat r.site.group).toNat = _
    rw [hr.group_eq, Installation.toNat_group hr.group_lt]

/-- The choices for a packet that heads straight for another group. -/
theorem choose_spec {t : Transit} (hr : t.router.InService n index) (hk : t.packet.Made n c index q)
    (htarget : t.packet.dest.target = t.packet.dest.group)
    (halternate : t.packet.dest.alternate = t.packet.dest.group)
    (haway : n.parameters.groupOf index ≠ t.packet.dest.group.toNat)
    (algorithm : Algorithm) :
    ∃ t', (Transit.choose algorithm t.packet.dest.group.toNat).run t = (.ok (), t') ∧
      t'.packet.Made n c index q ∧ t'.packet.Way n algorithm (n.parameters.groupOf index) := by
  have horigin : t.packet.origin.toNat = t.router.site.group := by rw [hk.origin_eq, hr.group_eq]
  obtain ⟨router, dest, slot, otherSlot, hrun, hslot, hother, hchosen⟩ :=
    hr.bounded.choose_spec hr.groups_le horigin (hr.parameters_eq ▸ hk.routable.group_lt) algorithm
  rw [hr.parameters_eq] at hslot hother hchosen
  rw [hr.group_eq] at hchosen
  refine ⟨_, hrun, ?_⟩
  cases hchosen with
  | straight few =>
    exact ⟨hk.choose _ hk.routable.target_lt hslot hother, .straight htarget halternate (few.imp_right .inl)⟩
  | around algorithm_eq through_lt ne_here ne_group =>
    exact ⟨hk.choose _ through_lt hslot hother, .around haway algorithm_eq rfl through_lt ne_here ne_group⟩
  | either algorithm_eq through_lt ne_here ne_group =>
    exact ⟨hk.choose _ hk.routable.target_lt hslot hother,
      .either algorithm_eq htarget through_lt ne_here ne_group⟩

/-- **What a router makes of a request** for a host of the network. -/
theorem inject_spec (hr : r.InService n index) (hd : q.destination < n.parameters.hostCount)
    (hc : n.plan.get q.network = .ok c) : ∃ k, (r.inject q).1 = .ok k ∧ k.Entered n c index q := by
  obtain ⟨dest, hlocate, htarget, halternate, hmade⟩ := made_enter hr hd c
  rw [Router.inject, hr.parameters_eq, hr.plan_eq, hlocate, hc]
  dsimp only [bind, Except.bind, pure, Except.pure]
  split
  · next hhome =>
    rw [hr.group_eq] at hhome
    exact ⟨_, rfl, hmade, .straight htarget halternate (.inr (.inr hhome.symm))⟩
  · next haway =>
    rw [hr.group_eq] at haway
    obtain ⟨t', hrun, hk, hway⟩ := choose_spec hr hmade htarget halternate (Ne.symm haway) c.algorithm
    dsimp only [Transit.enter] at hrun
    refine ⟨t'.packet, ?_, hk, hway⟩
    rw [Transit.enter, hrun]
    rfl

end Router.InService

end DragonflyFabric
