import DragonflyFabric.Proofs.Accepted
import DragonflyFabric.Proofs.Classes
import DragonflyFabric.Proofs.Exits.Served
import DragonflyFabric.Proofs.Fabric
import Mathlib.Data.Finset.Card
import Mathlib.Data.Finset.Prod
import Mathlib.Order.Interval.Finset.Nat

/-!
# Installed networks

An `Installation` is accepted settings with all that is built from them: the exit table, the audited wires
and the traffic classes.

* `exists_exit`: every row and slot has an exit, which is the global port that serves them. Exits hold
  sixteen bits in each part; that nothing is cut off when an entry is written is a consequence of the audit,
  because a port beyond sixteen bits could not be led back to.
* `link_gate`: the exit of one group toward another leads to the exit of that other group.
* `groups_lt`: there are fewer groups than thirty-two bits can number, and none has the number that stands
  for every host.
* `hosts_lt`: hosts are numbered by words, again because a port beyond them could not be led back to.
-/

namespace DragonflyFabric

/-- Settings that were read, and what is built from them. -/
structure Installation where
  settings : Settings
  table : ExitTable.View
  fabric : Fabric
  plan : ChannelPlan
  read : ∃ v, (Settings.ofValue v).result = .ok settings
  table_eq : settings.table = .ok table
  fabric_eq : (settings.fabric table).result = .ok fabric
  plan_eq : settings.plan = .ok plan

namespace Installation

variable (n : Installation) {group other row slot position index router port host : Nat}

abbrev parameters : Parameters := n.settings.parameters

abbrev numbering : Numbering := n.settings.numbering

theorem accepted : n.settings.Accepted :=
  have ⟨_, h⟩ := n.read
  Settings.accepted_of_ofValue h

theorem checked : n.parameters.Checked := n.accepted.counts

theorem inWords : n.numbering.InWords n.parameters.groups :=
  ExitTable.View.inWords n.table_eq n.checked.links_pos n.numbering

theorem laidOut : n.plan.LaidOut := ChannelPlan.laidOut_of_make n.plan_eq

theorem fabric_eq_ofParts :
    n.fabric = Fabric.ofParts n.parameters n.settings.numbering n.table n.settings.linkMap :=
  ((Fabric.ensures_build _ _ _ _).of_result n.fabric_eq).1

/-- The channels of a class, counted from its first one. -/
theorem contains_add {c : TrafficClass} {network : Nat} (hc : n.plan.get network = .ok c)
    {crossed : Nat} (h : crossed < c.algorithm.channels) : c.contains (c.start + crossed) = true := by
  rw [TrafficClass.contains_iff, TrafficClass.stop, n.laidOut.channels_eq hc]
  omega

@[simp] theorem fabric_parameters : n.fabric.parameters = n.parameters := by
  rw [fabric_eq_ofParts, Fabric.ofParts]

@[simp] theorem fabric_numbering : n.fabric.numbering = n.numbering := by
  rw [fabric_eq_ofParts, Fabric.ofParts]

@[simp] theorem fabric_table : n.fabric.table = n.table := by
  rw [fabric_eq_ofParts, Fabric.ofParts]

theorem routers_pos : 0 < n.fabric.parameters.routers := by
  rw [fabric_parameters]
  exact n.checked.routers_pos

theorem returns (hr : router < n.parameters.routerCount) (hp : port < n.parameters.radix) :
    n.fabric.wiring.Returns router port :=
  ((Fabric.ensures_build _ _ _ _).of_result n.fabric_eq).2 _ _ hr hp

theorem link_back (hr : router < n.parameters.routerCount) (hp : port < n.parameters.radix)
    {next nextPort : Nat} (h : (n.fabric.link router port).peer = .router next nextPort) :
    n.fabric.link next nextPort = ⟨.router router port, (n.fabric.link router port).kind⟩ :=
  Fabric.link_back n.routers_pos (n.returns hr hp) h

/-- Different ports lead to different ports of routers. -/
theorem port_eq_of_peer_eq (hr : router < n.parameters.routerCount) {port' next nextPort : Nat}
    (h : (n.fabric.link router port).peer = .router next nextPort)
    (h' : (n.fabric.link router port').peer = .router next nextPort) : port = port' := by
  have hp := Fabric.lt_radix_of_router n.routers_pos h
  have hp' := Fabric.lt_radix_of_router n.routers_pos h'
  rw [fabric_parameters] at hp hp'
  have hback := n.link_back hr hp h
  rw [n.link_back hr hp' h'] at hback
  cases hback
  rfl

/-! ### Hosts -/

/-- The hosts of a router have numbers that are words. -/
theorem number_lt (hr : router < n.parameters.routerCount) (hp : port < n.parameters.hosts) :
    router * n.parameters.hosts + port < 2 ^ 64 := by
  have hradix : port < n.parameters.radix :=
    Parameters.lt_radix_of_classOf? n.checked.routers_pos (Parameters.classOf?_host hp)
  rw [← n.fabric_parameters] at hp ⊢
  exact Fabric.number_lt_of_returns n.routers_pos (n.returns hr hradix) hp

theorem link_host (hr : router < n.parameters.routerCount) (hp : port < n.parameters.hosts) :
    n.fabric.link router port = ⟨.server (router * n.parameters.hosts + port), Link.hostKind⟩ := by
  rw [Fabric.link_host (by rwa [fabric_parameters]), fabric_parameters, Word.wrap_of_lt (n.number_lt hr hp)]

/-- A port that leads to a host is one of the host ports, and the host is the one of that number. -/
theorem eq_of_server (hr : router < n.parameters.routerCount)
    (h : (n.fabric.link router port).peer = .server host) :
    port < n.parameters.hosts ∧ host = router * n.parameters.hosts + port := by
  obtain ⟨hclass, -⟩ := Fabric.classOf?_of_server h
  rw [fabric_parameters] at hclass
  have hport := Parameters.classOf?_host_iff.mp hclass
  rw [n.link_host hr hport] at h
  cases h
  exact ⟨hport, rfl⟩

/-- **The hosts are numbered by words**, if there is one at all: there is one more of them than the number of the last
one, and the count of as many as there are words would be none. -/
theorem hosts_lt (h : host < n.parameters.hostCount) :
    n.parameters.hosts * n.parameters.routers * n.parameters.groups < 2 ^ 64 := by
  have hhosts := n.checked.hosts_pos
  have hcount : 0 < n.parameters.routerCount := Nat.zero_lt_of_lt (Parameters.div_hosts_lt h)
  have hlast := n.number_lt (Nat.sub_lt hcount Nat.one_pos) (Nat.sub_lt hhosts Nat.one_pos)
  have hall : n.parameters.hosts * n.parameters.routers * n.parameters.groups ≤ 2 ^ 64 := calc
    n.parameters.hosts * n.parameters.routers * n.parameters.groups
        = (n.parameters.routerCount - 1 + 1) * n.parameters.hosts := by
          rw [Nat.sub_add_cancel hcount, Nat.mul_assoc, Nat.mul_comm, Parameters.routerCount]
    _ = (n.parameters.routerCount - 1) * n.parameters.hosts + (n.parameters.hosts - 1) + 1 := by
          rw [Nat.add_mul, Nat.one_mul, Nat.add_assoc, Nat.sub_add_cancel hhosts]
    _ ≤ 2 ^ 64 := hlast
  refine Nat.lt_of_le_of_ne hall fun heq => ?_
  rw [Parameters.hostCount, heq] at h
  exact Nat.not_lt_zero host h

/-! ### Wires between routers -/

/-- The port to a sibling leads to it. -/
theorem link_portToSibling (h : n.parameters.positionOf router ≠ position)
    (hp : position < n.parameters.routers) :
    n.fabric.link router (n.parameters.portToSibling (n.parameters.positionOf router) position) =
      ⟨.router (n.parameters.routerAt (n.parameters.groupOf router) position)
        (n.parameters.portToSibling position (n.parameters.positionOf router)), Link.localKind⟩ := by
  conv_lhs => rw [← n.parameters.routerAt_groupOf_positionOf router]
  have hr := Parameters.positionOf_lt n.checked.routers_pos router
  rw [Parameters.positionOf_routerAt hr]
  have hlink := n.fabric.link_portToSibling (n.parameters.groupOf router) h
  rw [fabric_parameters] at hlink
  exact hlink hr hp

/-- Only global ports lead out of a group. -/
theorem groupOf_next_of_ne_exit {next nextPort : Nat} (hclass : n.parameters.classOf? port ≠ some .exit)
    (hpeer : (n.fabric.link router port).peer = .router next nextPort) :
    n.parameters.groupOf next = n.parameters.groupOf router := by
  have hrouters := n.checked.routers_pos
  rw [← n.fabric_parameters] at hclass hrouters ⊢
  cases hkind : n.fabric.parameters.classOf? port with
  | none => exact absurd hkind (Parameters.classOf?_ne_none (Fabric.lt_radix_of_router hrouters hpeer))
  | some kind =>
    cases kind with
    | exit => exact absurd hkind hclass
    | host =>
      simp only [Fabric.link, hkind] at hpeer
      cases hpeer
    | sibling =>
      rw [Fabric.link_sibling hkind] at hpeer
      cases hpeer
      exact Parameters.groupOf_routerAt (Parameters.siblingBehind_lt hkind (Parameters.positionOf_lt hrouters _))

/-! ### Exits -/

/-- The exit for a row and a slot: the global port that serves them. -/
structure Serves (row slot : Nat) (e : Exit) : Prop where
  lookup_eq : n.table.lookup row slot = .ok e
  router_lt : e.router.toNat < n.parameters.routers
  class_eq : n.parameters.classOf? e.port.toNat = some .exit
  served_eq : n.fabric.servedBy e.router.toNat e.port.toNat = some (row, slot)

theorem classOf?_exitPort (hi : index < n.parameters.exits) :
    n.parameters.classOf? (n.parameters.exitPort index) = some .exit :=
  n.checked.classOf?_exitPort hi

theorem exitPort_lt (hi : index < n.parameters.exits) : n.parameters.exitPort index < n.parameters.radix :=
  Nat.add_lt_add_left hi _

theorem servedBy_exitPort (hp : position < n.parameters.routers) (hi : index < n.parameters.exits) :
    n.fabric.servedBy position (n.parameters.exitPort index) =
      n.settings.linkMap.link? n.parameters position index := by
  rw [fabric_eq_ofParts]
  exact Fabric.servedBy_ofParts _ _ _ hp hi

/-- Every row and slot has an entry, made from the place of a port that serves them. -/
theorem exists_place (hr : row < n.parameters.rows) (hs : slot < n.parameters.links) :
    ∃ position index, position < n.parameters.routers ∧ index < n.parameters.exits ∧
      n.fabric.servedBy position (n.parameters.exitPort index) = some (row, slot) ∧
      n.table.lookup row slot = .ok (.ofPlace position (n.parameters.exitPort index)) := by
  obtain ⟨position, index, hp, hi, hlink, hlookup⟩ :=
    ExitTable.View.lookup_of_ofLinkMap n.table_eq hr hs
  exact ⟨position, index, hp, hi, by rw [n.servedBy_exitPort hp hi, hlink], hlookup⟩

theorem router_lt_of_lookup {e : Exit} (h : n.table.lookup row slot = .ok e) :
    e.router.toNat < n.parameters.routers := by
  obtain ⟨hr, hs⟩ := ExitTable.View.lt_of_lookup h
  obtain ⟨hrows, hslots⟩ := ExitTable.View.size_of_ofLinkMap n.table_eq
  rw [hrows] at hr
  rw [hslots] at hs
  obtain ⟨position, index, hp, -, -, hlookup⟩ := n.exists_place hr hs
  rw [h] at hlookup
  cases hlookup
  exact lt_of_le_of_lt (Nat.mod_le _ _) hp

theorem across_of_lookup {e : Exit}
    (h : n.table.lookup
        (n.numbering.rowOf (n.numbering.groupAt group row n.parameters.groups) group n.parameters.groups)
        slot = .ok e) :
    n.fabric.across group row slot =
      .router (n.parameters.routerAt (n.numbering.groupAt group row n.parameters.groups) e.router.toNat)
        e.port.toNat := by
  rw [Fabric.across_of_lookup, fabric_numbering, fabric_parameters]
  rw [fabric_numbering, fabric_parameters, fabric_table, h]

theorem link_of_serves {e : Exit} (hs : n.Serves row slot e) (group : Nat) :
    n.fabric.link (n.parameters.routerAt group e.router.toNat) e.port.toNat =
      ⟨n.fabric.across group row slot, Link.globalKind⟩ := by
  rw [← n.fabric_parameters, Fabric.link_of_servedBy, Parameters.groupOf_routerAt]
  all_goals rw [fabric_parameters]
  · exact hs.router_lt
  · exact hs.class_eq
  · rw [Parameters.positionOf_routerAt hs.router_lt]
    exact hs.served_eq

/-- **A port that serves a link fits in sixteen bits**: it is led back to by an exit, which has no more. -/
theorem place_lt (hp : position < n.parameters.routers) (hi : index < n.parameters.exits)
    (hr : row < n.parameters.rows) (hs : slot < n.parameters.links)
    (hserved : n.fabric.servedBy position (n.parameters.exitPort index) = some (row, slot)) :
    position < 65536 ∧ n.parameters.exitPort index < 65536 := by
  have h0 : 0 < n.parameters.groups := n.checked.groups_pos
  have hc := Numbering.groupAt_lt n.inWords h0 hr
  have hback := Numbering.rowOf_lt n.inWords hc h0 (Numbering.groupAt_ne n.inWords h0 hr)
  -- the port leads to the exit `e` of another group
  obtain ⟨_, _, -, -, -, hlookup⟩ := n.exists_place hback hs
  have hlink : n.fabric.link (n.parameters.routerAt 0 position) (n.parameters.exitPort index) =
      ⟨n.fabric.across 0 row slot, Link.globalKind⟩ := by
    rw [Fabric.link_of_servedBy, fabric_parameters, Parameters.groupOf_routerAt hp]
    · rw [fabric_parameters, n.classOf?_exitPort hi]
    · rw [fabric_parameters, Parameters.positionOf_routerAt hp, hserved]
  rw [n.across_of_lookup hlookup] at hlink
  -- and from there back, to an exit of this group
  have hreturn := n.link_back (Parameters.routerAt_lt h0 hp) (n.exitPort_lt hi) (by rw [hlink])
  rw [hlink] at hreturn
  have hclass := Fabric.classOf?_of_kind (congrArg Link.kind hreturn)
  cases hsb : n.fabric.servedBy (n.fabric.parameters.positionOf _) _ with
  | none =>
    rw [Fabric.link_of_idle hclass hsb] at hreturn
    cases hreturn
  | some served =>
    rw [Fabric.link_of_servedBy hclass hsb] at hreturn
    obtain ⟨e, he, hrouter, hport⟩ := Fabric.lookup_of_across (Link.mk.inj hreturn).1
    rw [fabric_table] at he
    have hposition := congrArg n.parameters.positionOf hrouter
    rw [fabric_parameters, Parameters.positionOf_routerAt hp,
      Parameters.positionOf_routerAt (n.router_lt_of_lookup he)] at hposition
    exact ⟨hposition ▸ e.router.toNat_lt, hport ▸ e.port.toNat_lt⟩

/-- **Every row and slot has an exit.** -/
theorem exists_exit (hr : row < n.parameters.rows) (hs : slot < n.parameters.links) :
    ∃ e, n.Serves row slot e := by
  obtain ⟨position, index, hp, hi, hserved, hlookup⟩ := n.exists_place hr hs
  obtain ⟨hposition, hport⟩ := n.place_lt hp hi hr hs hserved
  have hrouter : (Exit.ofPlace position (n.parameters.exitPort index)).router.toNat = position :=
    UInt16.toNat_ofNat_of_lt' hposition
  have hexit : (Exit.ofPlace position (n.parameters.exitPort index)).port.toNat = n.parameters.exitPort index :=
    UInt16.toNat_ofNat_of_lt' hport
  refine ⟨_, hlookup, by rwa [hrouter], ?_, ?_⟩
  · rw [hexit, n.classOf?_exitPort hi]
  · rw [hrouter, hexit, hserved]

/-! ### Gates -/

/-- The exit of a group toward another one by one of the parallel links. -/
def exitTo (group other slot : Nat) : Exit :=
  match n.table.lookup (n.numbering.rowOf group other n.parameters.groups) slot with
  | .ok e => e
  | .error _ => default

/-- The router of a group that has this exit. -/
def gate (group other slot : Nat) : Nat :=
  n.parameters.routerAt group (n.exitTo group other slot).router.toNat

theorem serves_exitTo (hg : group < n.parameters.groups) (ho : other < n.parameters.groups)
    (hne : group ≠ other) (hs : slot < n.parameters.links) :
    n.Serves (n.numbering.rowOf group other n.parameters.groups) slot (n.exitTo group other slot) := by
  obtain ⟨e, he⟩ := n.exists_exit (Numbering.rowOf_lt n.inWords hg ho hne) hs
  rwa [exitTo, he.lookup_eq]

theorem gate_lt (hg : group < n.parameters.groups) (ho : other < n.parameters.groups)
    (hne : group ≠ other) (hs : slot < n.parameters.links) :
    n.gate group other slot < n.parameters.routerCount :=
  Parameters.routerAt_lt hg (n.serves_exitTo hg ho hne hs).router_lt

theorem groupOf_gate (hg : group < n.parameters.groups) (ho : other < n.parameters.groups)
    (hne : group ≠ other) (hs : slot < n.parameters.links) :
    n.parameters.groupOf (n.gate group other slot) = group :=
  Parameters.groupOf_routerAt (n.serves_exitTo hg ho hne hs).router_lt

theorem positionOf_gate (hg : group < n.parameters.groups) (ho : other < n.parameters.groups)
    (hne : group ≠ other) (hs : slot < n.parameters.links) :
    n.parameters.positionOf (n.gate group other slot) = (n.exitTo group other slot).router.toNat :=
  Parameters.positionOf_routerAt (n.serves_exitTo hg ho hne hs).router_lt

/-- **The exit toward another group leads to the exit of that group toward this one.** -/
theorem link_gate (hg : group < n.parameters.groups) (ho : other < n.parameters.groups)
    (hne : group ≠ other) (hs : slot < n.parameters.links) :
    n.fabric.link (n.gate group other slot) (n.exitTo group other slot).port.toNat =
      ⟨.router (n.gate other group slot) (n.exitTo other group slot).port.toNat, Link.globalKind⟩ := by
  have hback := (n.serves_exitTo ho hg hne.symm hs).lookup_eq
  rw [← Numbering.groupAt_rowOf n.inWords hg ho hne] at hback
  rw [gate, n.link_of_serves (n.serves_exitTo hg ho hne hs), n.across_of_lookup hback,
    Numbering.groupAt_rowOf n.inWords hg ho hne, gate]

/-! ### Sizes -/

theorem firstExit_le_of_serves {e : Exit} (h : n.Serves row slot e) : n.parameters.firstExit ≤ e.port.toNat :=
  ((Parameters.classOf?_exit_iff n.checked.hosts_pos n.checked.routers_pos).mp h.class_eq).1

/-- Where there are other groups, positions and host ports fit in sixteen bits. -/
theorem firstExit_lt (h : 1 < n.parameters.groups) : n.parameters.firstExit < 65536 := by
  have hrows : 0 < n.parameters.rows := by
    rw [Parameters.rows]
    omega
  obtain ⟨e, he⟩ := n.exists_exit hrows n.checked.links_pos
  exact lt_of_le_of_lt (n.firstExit_le_of_serves he) e.port.toNat_lt

/-- **Thirty-two bits number all groups**, and one number is left over for every host: different rows have
exits at different places. -/
theorem groups_lt : n.parameters.groups < 0xffffffff := by
  have hexit : ∀ row ∈ Finset.range n.parameters.rows, ∃ e, n.Serves row 0 e :=
    fun row hr => n.exists_exit (Finset.mem_range.mp hr) n.checked.links_pos
  choose! exit hserves using hexit
  have hpos : 1 ≤ n.parameters.firstExit := by
    have := n.checked.hosts_pos
    have := n.checked.routers_pos
    rw [Parameters.firstExit]
    omega
  let place (row : Nat) : Nat × Nat := ((exit row).router.toNat, (exit row).port.toNat)
  let places : Finset (Nat × Nat) := Finset.range 65536 ×ˢ Finset.Ico 1 65536
  have hmaps : Set.MapsTo place (Finset.range n.parameters.rows) places := by
    intro row hr
    rw [Finset.mem_coe] at hr ⊢
    have hrouter := (exit row).router.toNat_lt
    have hport := (exit row).port.toNat_lt
    have hfirst := n.firstExit_le_of_serves (hserves row hr)
    simp only [place, places, Finset.mem_product, Finset.mem_range, Finset.mem_Ico]
    omega
  have hinj : Set.InjOn place (Finset.range n.parameters.rows) := by
    intro row hr row' hr' heq
    rw [Finset.mem_coe] at hr hr'
    obtain ⟨hrouter, hport⟩ := Prod.mk.inj heq
    have h := (hserves row hr).served_eq
    rw [hrouter, hport, (hserves row' hr').served_eq] at h
    exact (Prod.mk.inj (Option.some.inj h)).1.symm
  have hcard := Finset.card_le_card_of_injOn place hmaps hinj
  rw [Finset.card_range, Finset.card_product, Finset.card_range, Nat.card_Ico, Parameters.rows] at hcard
  omega

/-! ### A small network -/

/-- Three groups of two routers with a host each, every router with one global port. -/
def sample : Installation where
  settings :=
    { parameters := ⟨1, 2, 1, 3, 1⟩
      networks := 3
      algorithms := [.minimal, .valiant, .adaptive]
      threshold := 2.0
      linkMap := ⟨#[0, 1]⟩
      numbering := .relative
      policy := .sourceHash
      seed := 0 }
  table := ⟨some ⟨⟨#[some ⟨0, 2⟩, some ⟨1, 2⟩], 1⟩⟩, 2, 1⟩
  fabric := .ofParts ⟨1, 2, 1, 3, 1⟩ .relative ⟨some ⟨⟨#[some ⟨0, 2⟩, some ⟨1, 2⟩], 1⟩⟩, 2, 1⟩ ⟨#[0, 1]⟩
  plan := ⟨#[⟨0, 2, .minimal⟩, ⟨2, 3, .valiant⟩, ⟨5, 3, .adaptive⟩]⟩
  read :=
    ⟨.object "Dragonfly" [("hosts_per_router", .number 1), ("routers_per_group", .number 2),
        ("intergroup_per_router", .number 1), ("num_groups", .number 3),
        ("algorithm", .array [.literal "minimal", .literal "valiant", .literal "adaptive-local"])],
      ok_of_toOption (by decide +kernel)⟩
  table_eq := ok_of_toOption (by decide +kernel)
  fabric_eq := ok_of_toOption (by decide +kernel)
  plan_eq := ok_of_toOption (by decide +kernel)

end Installation

end DragonflyFabric
