import DragonflyFabric.Fabric
import DragonflyFabric.Proofs.Cells
import DragonflyFabric.Proofs.Ports
import DragonflyFabric.Proofs.Rows
import DragonflyFabric.Proofs.Wiring.Returns

/-!
# What the ports of a network lead to

One equation for each class of ports, and the way back of every wire in a network that passed the audit:
`Fabric.link_back`. The wires to hosts lead back as well, which they only do from hosts whose numbers are words:
`Fabric.number_lt_of_returns`.
-/

namespace DragonflyFabric.Fabric

variable {f : Fabric} {router port group position other host : Nat}

/-! ### Class by class -/

theorem link_host (h : port < f.parameters.hosts) :
    f.link router port = ⟨.server (Word.wrap (router * f.parameters.hosts + port)), Link.hostKind⟩ := by
  simp only [link, Parameters.classOf?_host h]

theorem link_sibling (h : f.parameters.classOf? port = some .sibling) :
    f.link router port =
      ⟨.router (f.parameters.routerAt (f.parameters.groupOf router)
          (f.parameters.siblingBehind (f.parameters.positionOf router) port))
        (f.parameters.portToSibling (f.parameters.siblingBehind (f.parameters.positionOf router) port)
          (f.parameters.positionOf router)), Link.localKind⟩ := by
  simp only [link, h]

/-- The port to a sibling leads to it. -/
theorem link_portToSibling (f : Fabric) (group : Nat) (h : position ≠ other) (hp : position < f.parameters.routers)
    (ho : other < f.parameters.routers) :
    f.link (f.parameters.routerAt group position) (f.parameters.portToSibling position other) =
      ⟨.router (f.parameters.routerAt group other) (f.parameters.portToSibling other position),
        Link.localKind⟩ := by
  rw [link_sibling (Parameters.classOf?_portToSibling h hp ho), Parameters.groupOf_routerAt hp,
    Parameters.positionOf_routerAt hp, Parameters.siblingBehind_portToSibling h]

/-- What the global port at a place of the group serves. -/
def servedBy (f : Fabric) (position port : Nat) : Option (Nat × Nat) :=
  f.served.getD (position * f.parameters.exits + (port - f.parameters.firstExit)) none

@[simp] theorem ofParts_parameters (p : Parameters) (numbering : Numbering) (table : ExitTable.View) (m : LinkMap) :
    (ofParts p numbering table m).parameters = p := rfl

@[simp] theorem ofParts_numbering (p : Parameters) (numbering : Numbering) (table : ExitTable.View) (m : LinkMap) :
    (ofParts p numbering table m).numbering = numbering := rfl

/-- A global port serves what the map says of its place. -/
theorem servedBy_ofParts {p : Parameters} {index : Nat} (numbering : Numbering) (table : ExitTable.View) (m : LinkMap)
    (hp : position < p.routers) (hi : index < p.exits) :
    (ofParts p numbering table m).servedBy position (p.exitPort index) = m.link? p position index := by
  have hplace := Grid.place_lt hp hi
  show ((Array.range (p.routers * p.exits)).map fun i => m.link? p (i / p.exits) (i % p.exits)).getD
    (position * p.exits + (p.exitPort index - p.firstExit)) none = _
  rw [Parameters.exitPort, Nat.add_sub_cancel_left, Array.getD_eq_getD_getElem?, Array.getElem?_map,
    Array.getElem?_range, if_pos hplace, Option.map_some, Option.getD_some, Grid.place_div hi,
    Grid.place_mod hi]

theorem link_of_servedBy {row slot : Nat} (h : f.parameters.classOf? port = some .exit)
    (hs : f.servedBy (f.parameters.positionOf router) port = some (row, slot)) :
    f.link router port = ⟨f.across (f.parameters.groupOf router) row slot, Link.globalKind⟩ := by
  rw [servedBy] at hs
  simp only [link, h, hs]

theorem link_of_idle (h : f.parameters.classOf? port = some .exit)
    (hs : f.servedBy (f.parameters.positionOf router) port = none) :
    f.link router port = ⟨.nothing, Link.globalKind⟩ := by
  rw [servedBy] at hs
  simp only [link, h, hs]

section Parts

variable {p : Parameters} {m : LinkMap} {index row slot : Nat} (numbering : Numbering) (table : ExitTable.View)
  (group : Nat) (hp : position < p.routers) (hi : index < p.exits) (hclass : p.classOf? (p.exitPort index) = some .exit)

include hp hi hclass

/-- A global port that serves a link leads across, whatever the table says of the other side. -/
theorem link_ofParts_of_some (hlink : m.link? p position index = some (row, slot)) :
    (ofParts p numbering table m).link (p.routerAt group position) (p.exitPort index) =
      ⟨(ofParts p numbering table m).across group row slot, Link.globalKind⟩ := by
  have hserved : (ofParts p numbering table m).servedBy (p.positionOf (p.routerAt group position)) (p.exitPort index) =
      some (row, slot) := by
    rw [Parameters.positionOf_routerAt hp, servedBy_ofParts numbering table m hp hi, hlink]
  have hleads := link_of_servedBy (f := ofParts p numbering table m) hclass hserved
  rwa [ofParts_parameters, Parameters.groupOf_routerAt hp] at hleads

/-- A global port that serves no link leads nowhere. -/
theorem link_ofParts_of_none (hlink : m.link? p position index = none) :
    (ofParts p numbering table m).link (p.routerAt group position) (p.exitPort index) =
      ⟨.nothing, Link.globalKind⟩ := by
  refine link_of_idle hclass ?_
  rw [ofParts_parameters, Parameters.positionOf_routerAt hp,
    servedBy_ofParts numbering table m hp hi, hlink]

end Parts

/-- Where a global link leads, there is an exit back. -/
theorem lookup_of_across {row slot next nextPort : Nat} (h : f.across group row slot = .router next nextPort) :
    ∃ e, f.table.lookup
        (f.numbering.rowOf (f.numbering.groupAt group row f.parameters.groups) group f.parameters.groups)
        slot = .ok e ∧
      next = f.parameters.routerAt (f.numbering.groupAt group row f.parameters.groups) e.router.toNat ∧
      nextPort = e.port.toNat := by
  simp only [across] at h
  split at h
  · next e he =>
    cases h
    exact ⟨e, he, rfl, rfl⟩
  · cases h

theorem across_of_lookup {row slot : Nat} {e : Exit}
    (h : f.table.lookup
        (f.numbering.rowOf (f.numbering.groupAt group row f.parameters.groups) group f.parameters.groups)
        slot = .ok e) :
    f.across group row slot =
      .router (f.parameters.routerAt (f.numbering.groupAt group row f.parameters.groups) e.router.toNat)
        e.port.toNat := by
  simp only [across, h]

/-- Only global ports have wires between groups. -/
theorem classOf?_of_kind (h : (f.link router port).kind = Link.globalKind) :
    f.parameters.classOf? port = some .exit := by
  rw [link] at h
  split at h
  · cases h
  · cases h
  · assumption
  · cases h

theorem kind_lt (f : Fabric) (router port : Nat) : (f.link router port).kind < 3 := by
  rw [link]
  split
  · exact (by decide : Link.hostKind < 3)
  · exact (by decide : Link.localKind < 3)
  · split <;> exact (by decide : Link.globalKind < 3)
  · exact (by decide : Link.localKind < 3)

/-- Only host ports lead to hosts. -/
theorem classOf?_of_server (h : (f.link router port).peer = .server host) :
    f.parameters.classOf? port = some .host ∧ host = Word.wrap (router * f.parameters.hosts + port) := by
  rw [link] at h
  split at h
  · cases h
    exact ⟨by assumption, rfl⟩
  · cases h
  · split at h
    · cases h
    · simp only [across] at h
      split at h <;> cases h
  · cases h

/-- Only the ports that a router has lead to routers. -/
theorem lt_radix_of_router {next nextPort : Nat} (hr : 0 < f.parameters.routers)
    (h : (f.link router port).peer = .router next nextPort) : port < f.parameters.radix := by
  cases hclass : f.parameters.classOf? port with
  | none =>
    simp only [link, hclass] at h
    cases h
  | some kind => exact Parameters.lt_radix_of_classOf? hr hclass

/-! ### Ways back -/

/-- A host is attached to the port that leads to it. -/
theorem hostLink_back (h : (f.link router port).peer = .server host)
    (hword : router * f.parameters.hosts + port < 2 ^ 64) :
    f.hostLink host = ⟨.router router port, (f.link router port).kind⟩ := by
  obtain ⟨hclass, rfl⟩ := classOf?_of_server h
  have hport := Parameters.classOf?_host_iff.mp hclass
  rw [hostLink, link_host hport, Word.wrap_of_lt hword, Grid.place_div hport, Grid.place_mod hport]

/-- In a network that was built, every wire leads back. -/
theorem ensures_build (p : Parameters) (n : Numbering) (table : ExitTable.View) (m : LinkMap) :
    Ensures (build p n table m) fun f => f = ofParts p n table m ∧
      ∀ router port, router < p.routerCount → port < p.radix → f.wiring.Returns router port :=
  .bind (Wiring.ensures_audit (ofParts p n table m).wiring (some 3)) fun _ h => .pure ⟨rfl, h⟩

theorem wiring_link? (hr : 0 < f.parameters.routers) (router port : Nat) :
    f.wiring.link? router port = some (f.link router port) :=
  if_neg (by omega)

theorem link_back (hr : 0 < f.parameters.routers) (hret : f.wiring.Returns router port)
    {next nextPort : Nat} (h : (f.link router port).peer = .router next nextPort) :
    f.link next nextPort = ⟨.router router port, (f.link router port).kind⟩ := by
  have hback := hret.of_router (wiring_link? hr router port) h
  rw [wiring_link? hr] at hback
  exact Option.some.inj hback

/-- The number of a host that leads back is a word: from what is left of a greater one, the way leads to another
port. -/
theorem number_lt_of_returns (hr : 0 < f.parameters.routers) (hret : f.wiring.Returns router port)
    (h : port < f.parameters.hosts) : router * f.parameters.hosts + port < 2 ^ 64 := by
  have hlink : f.wiring.link? router port =
      some ⟨.server (Word.wrap (router * f.parameters.hosts + port)), Link.hostKind⟩ := by
    rw [wiring_link? hr, link_host h]
  have hback : f.wiring.serverLink? (Word.wrap (router * f.parameters.hosts + port)) =
      some ⟨.router router port, Link.hostKind⟩ := hret.of_server hlink rfl
  rw [show f.wiring.serverLink? _ = some (f.hostLink _) from if_neg (Nat.ne_of_gt (Nat.zero_lt_of_lt h))] at hback
  obtain ⟨hrouter, hport⟩ := Peer.router.inj (Link.mk.inj (Option.some.inj hback)).1
  calc router * f.parameters.hosts + port
      = Word.wrap (router * f.parameters.hosts + port) := by
        rw [← Nat.div_add_mod' (Word.wrap (router * f.parameters.hosts + port)) f.parameters.hosts, hrouter, hport]
    _ < 2 ^ 64 := Word.wrap_lt _

end DragonflyFabric.Fabric
