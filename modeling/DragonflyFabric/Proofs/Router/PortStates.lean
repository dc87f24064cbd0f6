import DragonflyFabric.Proofs.Wiring.Complete
import DragonflyFabric.Router.Ports
import Mathlib.Order.Interval.Finset.Nat

/-!
# What a router says of its ports

A router knows no wires. It has the exit table of its group, and says of a global port that it leads to a router if
some entry of the table names the port; of any other port it goes by the class alone. Over a complete link map this is
what the wires say too.

* `Parameters.mem_portsOf_iff`: the classes of ports are three ranges, which follow one another.
* `LinkMap.Complete.isUsed_iff`: an entry names a global port exactly if the port serves a link.
* `Site.port_queries_agree`: for every port of a router, what the router says and what its wire shows.
-/

namespace DragonflyFabric

/-! ### Classes of ports -/

/-- What a port is connected to, as its wire shows it. -/
def PortState.ofPeer : Peer → PortState
  | .server _ => host
  | .router _ _ => router
  | .nothing => nothing

/-- The class of the wires behind ports of a class. -/
def PortClass.wireKind : PortClass → Nat
  | host => Link.hostKind
  | sibling => Link.localKind
  | exit => Link.globalKind

theorem PortClass.name_inj {c c' : PortClass} : c.name = c'.name ↔ c = c' := by
  cases c <;> cases c' <;> decide

namespace Parameters

variable {p : Parameters} {c c' : PortClass} {port : Nat}

/-- The ports of a class. -/
def portsOf (p : Parameters) : PortClass → Finset Nat
  | .host => Finset.Ico 0 p.firstSibling
  | .sibling => Finset.Ico p.firstSibling p.firstExit
  | .exit => Finset.Ico p.firstExit p.portEnd

theorem mem_portsOf_iff (hh : 0 < p.hosts) (hr : 0 < p.routers) : port ∈ p.portsOf c ↔ p.classOf? port = some c := by
  cases c with
  | host => simp [portsOf, classOf?_host_iff, firstSibling]
  | sibling =>
    constructor
    · intro h
      simp only [portsOf, firstSibling, Finset.mem_Ico] at h
      exact classOf?_sibling h.1 h.2
    · intro h
      simpa [portsOf, firstSibling] using bounds_of_sibling h
  | exit => simp [portsOf, classOf?_exit_iff hh hr]

/-- **The three ranges of ports make up the ports of a router**, and no port is in two of them. -/
theorem lt_radix_iff (hh : 0 < p.hosts) (hr : 0 < p.routers) : port < p.radix ↔ ∃! c, port ∈ p.portsOf c := by
  constructor
  · intro h
    obtain ⟨c, hc⟩ := Option.ne_none_iff_exists'.mp (classOf?_ne_none h)
    refine ⟨c, (mem_portsOf_iff hh hr).mpr hc, ?_⟩
    intro c' hc'
    have hsame := (mem_portsOf_iff hh hr).mp hc'
    rw [hc] at hsame
    exact (Option.some.inj hsame).symm
  · rintro ⟨c, hc, -⟩
    exact lt_radix_of_classOf? hr ((mem_portsOf_iff hh hr).mp hc)

theorem classOf_of_le (hr : 0 < p.routers) (h : p.radix ≤ port) :
    p.classOf port = .error (.noSuchPort port p.radix) := by
  cases hclass : p.classOf? port with
  | none => simp [classOf, hclass]
  | some c =>
    have := lt_radix_of_classOf? hr hclass
    omega

end Parameters

theorem Fabric.kind_of_class {f : Fabric} {router port : Nat} {c : PortClass}
    (h : f.parameters.classOf? port = some c) : (f.link router port).kind = c.wireKind := by
  cases c with
  | host => simp [link, h, PortClass.wireKind]
  | sibling => simp [link, h, PortClass.wireKind]
  | exit =>
    simp only [link, h, PortClass.wireKind]
    split <;> rfl

/-! ### Exits in use -/

theorem ExitTable.View.isUsed_iff {v : View} {position port : Nat} : v.isUsed position port = true ↔
    ∃ row slot, v.lookup row slot = .ok (.ofPlace position port) := by
  cases hstore : v.store with
  | none => simp [isUsed, lookup, hstore]
  | some s =>
    have hcell : ∀ row slot, v.lookup row slot = .ok (.ofPlace position port) ↔
        (row < v.rows ∧ slot < v.slots) ∧ s.cells.cell? row slot = some (some (.ofPlace position port)) := by
      intro row slot
      rw [lookup, hstore]
      dsimp only
      by_cases hin : row < v.rows ∧ slot < v.slots
      · rw [if_neg (by omega), and_iff_right hin]
        cases hat : s.cells.cell? row slot with
        | none => simp
        | some cell => cases cell <;> simp
      · rw [if_pos (by omega)]
        simp [hin]
    simp only [isUsed, hstore, hcell, List.any_eq_true, List.mem_range, decide_eq_true_eq]
    constructor
    · rintro ⟨row, hrow, slot, hslot, hat⟩
      exact ⟨row, slot, ⟨hrow, hslot⟩, hat⟩
    · rintro ⟨row, slot, ⟨hrow, hslot⟩, hat⟩
      exact ⟨row, hrow, slot, hslot, hat⟩

/-- **A global port is an exit of the table exactly if it serves a link.** -/
theorem LinkMap.Complete.isUsed_iff {m : LinkMap} {p : Parameters} {table : ExitTable.View} {position index : Nat}
    (h : m.Complete p table) (hp : position < p.routers) (hi : index < p.exits) :
    table.isUsed position (p.exitPort index) = true ↔ ∃ served, m.link? p position index = some served := by
  rw [ExitTable.View.isUsed_iff]
  constructor
  · rintro ⟨row, slot, hlookup⟩
    obtain ⟨hrow, hslot⟩ := ExitTable.View.lt_of_lookup hlookup
    obtain ⟨hrows, hslots⟩ := ExitTable.View.size_of_ofLinkMap h.table_eq
    rw [hrows] at hrow
    rw [hslots] at hslot
    obtain ⟨position', index', hp', hi', hlink, hsame⟩ := ExitTable.View.lookup_of_ofLinkMap h.table_eq hrow hslot
    rw [hlookup] at hsame
    -- no place is cut to sixteen bits, so that one entry names one port
    have hexit := Except.ok.inj hsame
    obtain ⟨hposition, hport⟩ := h.ofPlace_toNat hp hi
    obtain ⟨hposition', hport'⟩ := h.ofPlace_toNat hp' hi'
    rw [hexit] at hposition hport
    have hsamePosition : position = position' := hposition.symm.trans hposition'
    have hsameIndex : index = index' := by
      have := hport.symm.trans hport'
      simp only [Parameters.exitPort] at this
      omega
    subst hsamePosition hsameIndex
    exact ⟨_, hlink⟩
  · rintro ⟨⟨row, slot⟩, hlink⟩
    exact ⟨row, slot, (ExitTable.View.lookup_of_link? h.table_eq hp hi hlink).2.2⟩

/-! ### Routers over a complete map -/

namespace Site

variable {s : Site} {p : Parameters} {m : LinkMap} {table : ExitTable.View} {port : Nat}

/-- **What a router says of one of its ports is what the wire shows.** -/
theorem portState_eq (h : m.Complete p table) (numbering : Numbering) (hp : s.parameters = p) (ht : s.table = table)
    (hi : s.index < p.routerCount) (hport : port < p.radix) :
    s.portState port = .ok (.ofPeer ((Fabric.ofParts p numbering table m).link s.index port).peer) := by
  obtain ⟨c, hclass⟩ := Option.ne_none_iff_exists'.mp (Parameters.classOf?_ne_none hport)
  have hposition := Parameters.positionOf_lt h.counts.routers_pos s.index
  have hgroup := Parameters.groupOf_lt hi
  have hplace : s.position = p.positionOf s.index := by rw [position, hp]
  rw [portState, hp, Parameters.classOf_ok hclass]
  cases c with
  | host =>
    rw [Fabric.link_host (Parameters.classOf?_host_iff.mp hclass)]
    rfl
  | sibling =>
    rw [Fabric.link_sibling hclass]
    rfl
  | exit =>
    obtain ⟨hfirst, hend⟩ := (Parameters.classOf?_exit_iff h.counts.hosts_pos h.counts.routers_pos).mp hclass
    obtain ⟨index, rfl⟩ : ∃ index, port = p.exitPort index := ⟨_, (Nat.add_sub_of_le hfirst).symm⟩
    have hindex : index < p.exits := by
      simp only [Parameters.exitPort, Parameters.portEnd] at hend
      omega
    have hused := h.isUsed_iff hposition hindex
    have hrouter := p.routerAt_groupOf_positionOf s.index
    show Except.ok (if s.table.isUsed s.position _ = true then PortState.router else .nothing) = _
    rw [ht, hplace]
    cases hlink : m.link? p (p.positionOf s.index) index with
    | none =>
      have hidle : (Fabric.ofParts p numbering table m).link (p.routerAt (p.groupOf s.index) _) _ = _ :=
        Fabric.link_idle h hposition hindex hlink
      rw [hrouter] at hidle
      rw [hidle, if_neg]
      · rfl
      · simp [hused, hlink]
    | some served =>
      obtain ⟨row, slot⟩ := served
      obtain ⟨_, _, -, hleads⟩ := Fabric.link_exit h hgroup hposition hindex numbering hlink
      rw [hrouter] at hleads
      rw [hleads, if_pos (hused.mpr ⟨_, hlink⟩)]
      rfl

/-- **Routers and wires tell the same of every port.** The ports of a router are three ranges. Over a table that was
made of a link map, in either numbering, a router of the network says of a port that a host, a router or nothing is
behind it exactly if the port leads to one, and calls the port by a class exactly if it is in the range and behind it is
a wire of that class. From the radix on there are no ports, whichever it is asked for. -/
theorem port_queries_agree (numbering : Numbering) (hcheck : p.check = .ok p)
    (htable : ExitTable.View.ofLinkMap p m = .ok table) (hrouters : p.routers ≤ 65536)
    (hradix : p.radix ≤ 65536) :
    (∀ port, port < p.radix ↔ ∃! c, port ∈ p.portsOf c) ∧
    ∃ f, (Fabric.build p numbering table m).result = .ok f ∧
      ∀ s : Site, s.parameters = p → s.table = table → s.index < p.routerCount → ∀ port,
        (port < p.radix →
          (s.portState port = .ok .host ↔ ∃ host, (f.link s.index port).peer = .server host) ∧
          (s.portState port = .ok .router ↔ ∃ next nextPort, (f.link s.index port).peer = .router next nextPort) ∧
          (s.portState port = .ok .nothing ↔ (f.link s.index port).peer = .nothing) ∧
          ∀ c : PortClass, (s.parameters.classOf port).map PortClass.name = .ok c.name ↔
            (f.link s.index port).kind = c.wireKind ∧ port ∈ p.portsOf c) ∧
        (p.radix ≤ port → s.portState port = .error (.noSuchPort port p.radix) ∧
          (s.parameters.classOf port).map PortClass.name = .error (.noSuchPort port p.radix)) := by
  have hcounts := (Parameters.checked_of_check hcheck).2
  have h : m.Complete p table := ⟨hcounts, hrouters, hradix, htable⟩
  refine ⟨fun port => Parameters.lt_radix_iff hcounts.hosts_pos hcounts.routers_pos, _,
    Fabric.build_eq_ofParts h numbering, ?_⟩
  intro s hp ht hi port
  constructor
  · intro hport
    rw [portState_eq h numbering hp ht hi hport]
    refine ⟨?_, ?_, ?_, ?_⟩
    · cases ((Fabric.ofParts p numbering table m).link s.index port).peer <;> simp [PortState.ofPeer]
    · cases ((Fabric.ofParts p numbering table m).link s.index port).peer <;> simp [PortState.ofPeer]
    · cases ((Fabric.ofParts p numbering table m).link s.index port).peer <;> simp [PortState.ofPeer]
    · intro c
      obtain ⟨c', hclass⟩ := Option.ne_none_iff_exists'.mp (Parameters.classOf?_ne_none hport)
      rw [hp, Parameters.classOf_ok hclass, Parameters.mem_portsOf_iff hcounts.hosts_pos hcounts.routers_pos, hclass,
        Fabric.kind_of_class (f := Fabric.ofParts p numbering table m) hclass]
      simp only [Except.map, Except.ok.injEq, Option.some.injEq, PortClass.name_inj]
      constructor
      · rintro rfl
        exact ⟨rfl, rfl⟩
      · exact fun hboth => hboth.2.symm ▸ rfl
  · intro hport
    have hnone := Parameters.classOf_of_le hcounts.routers_pos hport
    constructor
    · rw [portState, hp, hnone]
      rfl
    · rw [hp, hnone]
      rfl

/-- Router 5 of the four groups of two routers whose last global port serves no link. -/
def lastPortIdle : Site where
  parameters := ⟨1, 2, 2, 4, 1⟩
  index := 5
  numbering := .relative
  table := ⟨some ⟨⟨#[some ⟨0, 3⟩, some ⟨1, 2⟩, some ⟨0, 2⟩], 1⟩⟩, 3, 1⟩
  plan := ⟨#[⟨0, 2, .minimal⟩]⟩
  threshold := 2.0
  policy := .sourceHash
  channels := 2

/-- Behind its first port is a host, behind the third one a wire between groups and behind the fourth one nothing; there
is no fifth one. -/
theorem port_queries_agree_lastPortIdle :
    let s := lastPortIdle
    s.parameters.check = .ok s.parameters ∧
      ExitTable.View.ofLinkMap s.parameters ⟨#[2, 0, 1, -1]⟩ = .ok s.table ∧
      ∃ f, (Fabric.build s.parameters s.numbering s.table ⟨#[2, 0, 1, -1]⟩).result = .ok f ∧
        (∃ host, (f.link 5 0).peer = .server host) ∧ (f.link 5 2).kind = Link.globalKind ∧
        (f.link 5 3).peer = .nothing ∧ s.portState 4 = .error (.noSuchPort 4 4) := by
  intro s
  have hcheck : s.parameters.check = .ok s.parameters := rfl
  have htable : ExitTable.View.ofLinkMap s.parameters ⟨#[2, 0, 1, -1]⟩ = .ok s.table :=
    ok_of_toOption (by decide +kernel)
  refine ⟨hcheck, htable, ?_⟩
  obtain ⟨-, f, hbuild, hall⟩ := port_queries_agree s.numbering hcheck htable (by decide) (by decide)
  have hport := hall s rfl rfl (by decide)
  refine ⟨f, hbuild, ?_, ?_, ?_, ?_⟩
  · exact ((hport 0).1 (by decide)).1.mp rfl
  · exact (((hport 2).1 (by decide)).2.2.2 .exit |>.mp rfl).1
  · exact ((hport 3).1 (by decide)).2.2.1.mp (ok_of_toOption (by decide +kernel))
  · exact ((hport 4).2 (by decide)).1

end Site

end DragonflyFabric
