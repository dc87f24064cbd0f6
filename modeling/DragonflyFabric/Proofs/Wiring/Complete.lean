import DragonflyFabric.Proofs.Accepted
import DragonflyFabric.Proofs.Exits.Served
import DragonflyFabric.Proofs.Fabric

/-!
# A complete link map gives wires that lead back

A link map is complete if a table can be made of it: every row and slot is then served by one global port, the
same one in all groups. Where places fit in the sixteen bits of an exit, the network over such a map and its
table passes the audit in either numbering: `Fabric.build_of_complete`.

* `link_exit`: a global port that serves a row and a slot leads to the port of the other group that serves the
  row of this group and the same slot.
* `leadsBack_ofParts`: as rows and groups name each other, that port leads back by the same rule, and so do all
  others.
-/

namespace DragonflyFabric

namespace LinkMap

/-- A map that is given has an entry for every global port, and none below `-1`. -/
theorem ensures_ofEntries (p : Parameters) (entries : Array Int) :
    Ensures (ofEntries p entries) fun m => m.entries.size = p.routers * p.exits ∧ ∀ link ∈ m.entries, -1 ≤ link := by
  intro σ m σ' h
  obtain ⟨⟨hsize, hbounds⟩, rfl⟩ := (decides_ofEntries p entries).ensures σ m σ' h
  exact ⟨hsize, fun link hlink => (hbounds link hlink).1⟩

/-- In such a map, the ports that serve no link are those with the entry `-1`. -/
theorem link?_eq_none_iff {m : LinkMap} {p : Parameters} {position index : Nat}
    (hsize : m.entries.size = p.routers * p.exits) (hleast : ∀ link ∈ m.entries, -1 ≤ link)
    (hp : position < p.routers) (hi : index < p.exits) :
    m.link? p position index = none ↔ m.entries[position * p.exits + index]? = some (-1) := by
  have hplace : position * p.exits + index < m.entries.size := hsize ▸ Grid.place_lt hp hi
  have hentry := hleast _ (Array.getElem_mem hplace)
  rw [link?, Array.getElem?_eq_getElem hplace]
  dsimp only
  split
  · next hneg => exact ⟨fun _ => congrArg some (by omega), fun _ => rfl⟩
  · next hpos =>
    constructor
    · intro h
      cases h
    · intro h
      have := Option.some.inj h
      omega

/-- The global port at a place of a group is the one that serves a row and a slot. -/
structure ServedAt (m : LinkMap) (p : Parameters) (row slot position index : Nat) : Prop where
  position_lt : position < p.routers
  index_lt : index < p.exits
  link_eq : m.link? p position index = some (row, slot)
  only : ∀ position' index', position' < p.routers → index' < p.exits →
    m.link? p position' index' = some (row, slot) → position' = position ∧ index' = index

/-- In a map of which a table was made, every port that serves a link is the only one. -/
theorem servedAt_of_link? {m : LinkMap} {p : Parameters} {table : ExitTable.View} {row slot position index : Nat}
    (htable : ExitTable.View.ofLinkMap p m = .ok table) (hp : position < p.routers) (hi : index < p.exits)
    (hlink : m.link? p position index = some (row, slot)) : m.ServedAt p row slot position index :=
  ⟨hp, hi, hlink, fun _ _ hp' hi' => ExitTable.View.place_eq_of_link?_eq htable hp hi hp' hi' hlink⟩

/-- A map of which a table was made, for counts whose places fit in an exit. -/
structure Complete (m : LinkMap) (p : Parameters) (table : ExitTable.View) : Prop where
  counts : p.Checked
  routers_le : p.routers ≤ 65536
  radix_le : p.radix ≤ 65536
  table_eq : ExitTable.View.ofLinkMap p m = .ok table

namespace Complete

variable {m : LinkMap} {p : Parameters} {table : ExitTable.View} {position index row slot : Nat}
  (h : m.Complete p table)

include h

/-- No place is cut. -/
theorem ofPlace_toNat (hp : position < p.routers) (hi : index < p.exits) :
    (Exit.ofPlace position (p.exitPort index)).router.toNat = position ∧
      (Exit.ofPlace position (p.exitPort index)).port.toNat = p.exitPort index := by
  have hport := Parameters.lt_radix_of_classOf? h.counts.routers_pos (h.counts.classOf?_exitPort hi)
  exact ⟨UInt16.toNat_ofNat_of_lt' (Nat.lt_of_lt_of_le hp h.routers_le),
    UInt16.toNat_ofNat_of_lt' (Nat.lt_of_lt_of_le hport h.radix_le)⟩

theorem inWords (numbering : Numbering) : numbering.InWords p.groups :=
  ExitTable.View.inWords h.table_eq h.counts.links_pos numbering

/-- There are no more groups than one more than global ports, so that the hosts are numbered by words. -/
theorem hosts_lt : p.hosts * p.routers * p.groups < 2 ^ 64 := by
  have hradix := h.radix_le
  have hrouters := h.routers_le
  have hpos := h.counts.routers_pos
  have hrows : p.rows ≤ p.exits * p.routers := calc
    p.rows ≤ p.rows * p.links := Nat.le_mul_of_pos_right _ h.counts.links_pos
    _ = p.linkCount := by
      have := ExitTable.View.places_lt h.table_eq
      rw [Parameters.linkCount_eq (by omega)]
    _ ≤ p.exits * p.routers := Nat.mul_comm p.routers _ ▸ h.counts.linkCount_le
  rw [Parameters.radix] at hradix
  have hports : p.hosts * p.exits ≤ 32768 * 65536 := by
    rcases Nat.le_total p.hosts 32768 with hhosts | hhosts
    · exact Nat.mul_le_mul hhosts (by omega)
    · rw [Nat.mul_comm 32768]
      exact Nat.mul_le_mul (by omega) (by omega)
  calc p.hosts * p.routers * p.groups
      ≤ p.hosts * p.routers * (p.exits * p.routers + 1) :=
        Nat.mul_le_mul_left _ (by rw [Parameters.rows] at hrows; omega)
    _ = p.hosts * p.exits * (p.routers * p.routers) + p.hosts * p.routers := by
        rw [Nat.mul_add, Nat.mul_one, Nat.mul_mul_mul_comm]
    _ ≤ 32768 * 65536 * (65536 * 65536) + 65536 * 65536 :=
        Nat.add_le_add (Nat.mul_le_mul hports (Nat.mul_le_mul hrouters hrouters)) (Nat.mul_le_mul (by omega) hrouters)
    _ < 2 ^ 64 := by decide

theorem servedAt (hp : position < p.routers) (hi : index < p.exits)
    (hlink : m.link? p position index = some (row, slot)) : m.ServedAt p row slot position index :=
  servedAt_of_link? h.table_eq hp hi hlink

end Complete

end LinkMap

namespace Fabric

variable {p : Parameters} {m : LinkMap} {table : ExitTable.View} {numbering : Numbering}
  {group position index row slot router port next nextPort : Nat}

section Exits

variable (h : m.Complete p table) (hg : group < p.groups) (hp : position < p.routers) (hi : index < p.exits)

include h hp hi

theorem link_idle (hlink : m.link? p position index = none) :
    (ofParts p numbering table m).link (p.routerAt group position) (p.exitPort index) =
      ⟨.nothing, Link.globalKind⟩ :=
  link_ofParts_of_none numbering table group hp hi (h.counts.classOf?_exitPort hi) hlink

include hg

/-- **A global port leads to the port of the other group that serves the row of this one** and the same slot. -/
theorem link_exit (numbering : Numbering) (hlink : m.link? p position index = some (row, slot)) :
    ∃ position' index',
      m.ServedAt p (numbering.rowOf (numbering.groupAt group row p.groups) group p.groups) slot position' index' ∧
      (ofParts p numbering table m).link (p.routerAt group position) (p.exitPort index) =
        ⟨.router (p.routerAt (numbering.groupAt group row p.groups) position') (p.exitPort index'),
          Link.globalKind⟩ := by
  have hw := h.inWords numbering
  obtain ⟨hrow, hslot, -⟩ := ExitTable.View.lookup_of_link? h.table_eq hp hi hlink
  have hback := Numbering.rowOf_lt hw (Numbering.groupAt_lt hw hg hrow) hg (Numbering.groupAt_ne hw hg hrow)
  obtain ⟨position', index', hp', hi', hlink', hlookup⟩ := ExitTable.View.lookup_of_ofLinkMap h.table_eq hback hslot
  obtain ⟨hposition, hport⟩ := h.ofPlace_toNat hp' hi'
  have hleads := link_ofParts_of_some numbering table group hp hi (h.counts.classOf?_exitPort hi) hlink
  rw [across_of_lookup hlookup, hposition, hport] at hleads
  exact ⟨position', index', h.servedAt hp' hi' hlink', hleads⟩

end Exits

/-! ### Ways back -/

/-- What a port leads to, a port of another router, is one of the network and leads back. -/
structure LeadsBack (f : Fabric) (router port next nextPort : Nat) : Prop where
  next_lt : next < f.parameters.routerCount
  nextPort_lt : nextPort < f.parameters.radix
  link_eq : f.link next nextPort = ⟨.router router port, (f.link router port).kind⟩

theorem leadsBack_sibling {f : Fabric} (hr : router < f.parameters.routerCount) (hpos : 0 < f.parameters.routers)
    (hclass : f.parameters.classOf? port = some .sibling)
    (hpeer : (f.link router port).peer = .router next nextPort) : f.LeadsBack router port next nextPort := by
  have hposition := Parameters.positionOf_lt hpos router
  have hother := Parameters.siblingBehind_lt hclass hposition
  have hne := Parameters.siblingBehind_ne (f.parameters.positionOf router) hclass
  rw [link_sibling hclass] at hpeer
  cases hpeer
  refine ⟨Parameters.routerAt_lt (Parameters.groupOf_lt hr) hother,
    Parameters.lt_radix_of_classOf? hpos (Parameters.classOf?_portToSibling hne hother hposition), ?_⟩
  rw [f.link_portToSibling _ hne hother hposition, Parameters.portToSibling_siblingBehind hclass,
    Parameters.routerAt_groupOf_positionOf, link_sibling hclass]

theorem leadsBack_exit (h : m.Complete p table) (hr : router < p.routerCount)
    (hclass : p.classOf? port = some .exit)
    (hpeer : ((ofParts p numbering table m).link router port).peer = .router next nextPort) :
    (ofParts p numbering table m).LeadsBack router port next nextPort := by
  have hg := Parameters.groupOf_lt hr
  have hp := Parameters.positionOf_lt h.counts.routers_pos router
  obtain ⟨hfirst, hend⟩ := (Parameters.classOf?_exit_iff h.counts.hosts_pos h.counts.routers_pos).mp hclass
  rw [Parameters.portEnd] at hend
  obtain ⟨index, rfl⟩ : ∃ index, port = p.exitPort index := ⟨_, (Nat.add_sub_of_le hfirst).symm⟩
  have hi : index < p.exits := Nat.lt_of_add_lt_add_left hend
  have hrouter := p.routerAt_groupOf_positionOf router
  cases hlink : m.link? p (p.positionOf router) index with
  | none =>
    rw [← hrouter, link_idle h hp hi hlink] at hpeer
    cases hpeer
  | some served =>
    obtain ⟨row, slot⟩ := served
    obtain ⟨position', index', hserved, hleads⟩ := link_exit h hg hp hi numbering hlink
    obtain ⟨hrow, -, -⟩ := ExitTable.View.lookup_of_link? h.table_eq hp hi hlink
    have hw := h.inWords numbering
    have hg' := Numbering.groupAt_lt hw hg hrow
    -- From there the same rule leads to the group of this router, and to the port that serves its row.
    obtain ⟨position'', index'', hserved', hreturns⟩ :=
      link_exit h hg' hserved.position_lt hserved.index_lt numbering hserved.link_eq
    rw [Numbering.groupAt_rowOf hw hg' hg (Numbering.groupAt_ne hw hg hrow)] at hserved' hreturns
    rw [Numbering.rowOf_groupAt hw hg hrow] at hserved'
    obtain ⟨rfl, rfl⟩ := hserved'.only _ _ hp hi hlink
    rw [hrouter] at hleads hreturns
    rw [hleads] at hpeer
    cases hpeer
    refine ⟨Parameters.routerAt_lt hg' hserved.position_lt,
      Parameters.lt_radix_of_classOf? h.counts.routers_pos (h.counts.classOf?_exitPort hserved.index_lt), ?_⟩
    rw [hreturns, hleads]

/-- **Every wire between routers leads back.** -/
theorem leadsBack_ofParts (h : m.Complete p table) (numbering : Numbering) (hr : router < p.routerCount) (hport : port < p.radix)
    (hpeer : ((ofParts p numbering table m).link router port).peer = .router next nextPort) :
    (ofParts p numbering table m).LeadsBack router port next nextPort := by
  cases hclass : p.classOf? port with
  | none => exact absurd hclass (Parameters.classOf?_ne_none hport)
  | some kind =>
    cases kind with
    | host =>
      simp only [link, ofParts_parameters, hclass] at hpeer
      cases hpeer
    | sibling => exact leadsBack_sibling (f := ofParts p numbering table m) hr h.counts.routers_pos hclass hpeer
    | exit => exact leadsBack_exit h hr hclass hpeer

theorem auditPort_ofParts (h : m.Complete p table) (hr : router < p.routerCount) (hport : port < p.radix) :
    ∃ connected, (ofParts p numbering table m).wiring.auditPort (some 3) router port = .ok connected := by
  let f := ofParts p numbering table m
  have hlink : ∀ router port, f.wiring.link? router port = some (f.link router port) :=
    fun _ _ => if_neg (Nat.ne_of_gt h.counts.routers_pos)
  have hkind : ∀ limit, some 3 = some limit → (f.link router port).kind < limit := by
    rintro _ ⟨⟩
    exact f.kind_lt router port
  cases hpeer : (f.link router port).peer with
  | router next nextPort =>
    have hback := (leadsBack_ofParts h numbering hr hport hpeer).link_eq
    refine Wiring.auditPort_of_back (some (f.link next nextPort)) (hlink router port) hkind ?_ ?_
    · rw [hpeer, Wiring.back, hlink]
      rfl
    · rintro _ ⟨⟩
      exact hback
  | server host =>
    refine Wiring.auditPort_of_back (some (f.hostLink host)) (hlink router port) hkind ?_ ?_
    · rw [hpeer, Wiring.back, show f.wiring.serverLink? host = some (f.hostLink host) from
        if_neg (Nat.ne_of_gt h.counts.hosts_pos)]
      rfl
    · rintro _ ⟨⟩
      have hhost := Parameters.classOf?_host_iff.mp (classOf?_of_server hpeer).1
      exact hostLink_back hpeer (Nat.lt_trans (Parameters.number_lt hr hhost) h.hosts_lt)
  | nothing =>
    refine Wiring.auditPort_of_back none (hlink router port) hkind ?_ ?_
    · rw [hpeer]
      rfl
    · rintro _ ⟨⟩

theorem build_eq_ofParts (h : m.Complete p table) (numbering : Numbering) :
    (build p numbering table m).result = .ok (ofParts p numbering table m) :=
  Answers.result_eq <| .bind (Wiring.answers_audit fun _ _ hr hport => auditPort_ofParts h hr hport) (.pure _)

/-- **The network over a complete link map passes the audit**, in either numbering. Its global ports lead where
the map says, to the ports that lead back, and no two ports of routers lead to the same one. -/
theorem build_of_complete {entries : Array Int} (numbering : Numbering) (hcheck : p.check = .ok p)
    (hmap : (LinkMap.ofEntries p entries).result = .ok m) (htable : ExitTable.View.ofLinkMap p m = .ok table)
    (hrouters : p.routers ≤ 65536) (hradix : p.radix ≤ 65536) :
    ∃ f, (build p numbering table m).result = .ok f ∧
      (∀ group position index, group < p.groups → position < p.routers → index < p.exits →
        (f.link (p.routerAt group position) (p.exitPort index) = ⟨.nothing, Link.globalKind⟩ ↔
          m.entries[position * p.exits + index]? = some (-1)) ∧
        ∀ row slot, m.link? p position index = some (row, slot) → ∃ position' index',
          m.ServedAt p (numbering.rowOf (numbering.groupAt group row p.groups) group p.groups) slot
            position' index' ∧
          f.link (p.routerAt group position) (p.exitPort index) =
            ⟨.router (p.routerAt (numbering.groupAt group row p.groups) position') (p.exitPort index'),
              Link.globalKind⟩) ∧
      (∀ router port next nextPort, router < p.routerCount → port < p.radix →
        (f.link router port).peer = .router next nextPort →
        next < p.routerCount ∧ nextPort < p.radix ∧
          f.link next nextPort = ⟨.router router port, (f.link router port).kind⟩) ∧
      ∀ router port router' port' next nextPort, router < p.routerCount → port < p.radix →
        router' < p.routerCount → port' < p.radix → (f.link router port).peer = .router next nextPort →
        (f.link router' port').peer = .router next nextPort → router = router' ∧ port = port' := by
  have h : m.Complete p table := ⟨(Parameters.checked_of_check hcheck).2, hrouters, hradix, htable⟩
  obtain ⟨hsize, hleast⟩ := (LinkMap.ensures_ofEntries p entries).of_result hmap
  refine ⟨ofParts p numbering table m, ?_, ?_, ?_, ?_⟩
  · refine Answers.result_eq (Answers.bind (Wiring.answers_audit ?_) (.pure _))
    exact fun router port hr hport => auditPort_ofParts h hr hport
  · intro group position index hg hp hi
    refine ⟨?_, fun row slot hlink => link_exit h hg hp hi numbering hlink⟩
    rw [← LinkMap.link?_eq_none_iff hsize hleast hp hi]
    refine ⟨fun hnothing => ?_, link_idle h hp hi⟩
    cases hlink : m.link? p position index with
    | none => rfl
    | some served =>
      obtain ⟨_, _, -, hleads⟩ := link_exit h hg hp hi numbering hlink
      rw [hleads] at hnothing
      cases hnothing
  · intro router port next nextPort hr hport hpeer
    have hleads := leadsBack_ofParts h numbering hr hport hpeer
    exact ⟨hleads.next_lt, hleads.nextPort_lt, hleads.link_eq⟩
  · intro router port router' port' next nextPort hr hport hr' hport' hpeer hpeer'
    have hlink := (leadsBack_ofParts h numbering hr hport hpeer).link_eq
    rw [(leadsBack_ofParts h numbering hr' hport' hpeer').link_eq] at hlink
    cases hlink
    exact ⟨rfl, rfl⟩

/-- Four groups of two routers over a map that does not have its links in order: the last global port of each
group leads nowhere, and the first one, which serves the last row, to the exit for the first row. -/
theorem build_of_complete_permuted :
    ∃ f, (build ⟨1, 2, 2, 4, 1⟩ .relative ⟨some ⟨⟨#[some ⟨0, 3⟩, some ⟨1, 2⟩, some ⟨0, 2⟩], 1⟩⟩, 3, 1⟩
        ⟨#[2, 0, 1, -1]⟩).result = .ok f ∧
      f.link 5 3 = ⟨.nothing, Link.globalKind⟩ ∧
      ∃ position' index', LinkMap.ServedAt ⟨#[2, 0, 1, -1]⟩ ⟨1, 2, 2, 4, 1⟩ 0 0 position' index' ∧
        f.link 4 2 = ⟨.router (1 * 2 + position') (2 + index'), Link.globalKind⟩ := by
  obtain ⟨f, hbuild, hexits, -⟩ := @build_of_complete ⟨1, 2, 2, 4, 1⟩ ⟨#[2, 0, 1, -1]⟩
    ⟨some ⟨⟨#[some ⟨0, 3⟩, some ⟨1, 2⟩, some ⟨0, 2⟩], 1⟩⟩, 3, 1⟩ #[2, 0, 1, -1] .relative rfl (ok_of_toOption (by decide +kernel)) (ok_of_toOption (by decide +kernel)) (by decide) (by decide)
  exact ⟨f, hbuild, (hexits 2 1 1 (by decide) (by decide) (by decide)).1.mpr rfl,
    (hexits 2 0 0 (by decide) (by decide) (by decide)).2 2 0 rfl⟩

end Fabric

end DragonflyFabric
