import DragonflyFabric.Proofs.Journey.Straight
import DragonflyFabric.Proofs.Journey.Walks

/-!
# One copy of what is sent to every host

The copies go along the straight ways to the source, by the first of the parallel links, but backwards. A router
that gets one by the port of its own straight way sends it on to its hosts and to those routers for which it is
the next one, and they get it by the ports of theirs.

* `announcePorts_eq`: the ports by which the copies leave are `copyPorts`.
* `Network.InService.spread_spec`: what a list of ports leads to.
* `leads_on_iff`: which routers the ports of `copyPorts` lead to.
-/

namespace DragonflyFabric

variable {n : Installation} {index host source : Nat}

namespace Installation

/-! ### First exits -/

/-- The exit of a group for a row, by the first of the parallel links. -/
def rowExit (n : Installation) (group row : Nat) : Exit :=
  n.exitTo group (n.numbering.groupAt group row n.parameters.groups) 0

/-- The exits that a router has by the first of the parallel links, row by row. -/
def firstExits (n : Installation) (index : Nat) : List Nat :=
  ((List.range n.parameters.rows).filter fun row =>
    (n.rowExit (n.parameters.groupOf index) row).router.toNat = n.parameters.positionOf index).map fun row =>
      (n.rowExit (n.parameters.groupOf index) row).port.toNat

section FirstExits

variable (hi : index < n.parameters.routerCount) {row : Nat}

include hi

theorem ahead_of_row (hrow : row < n.parameters.rows) :
    n.Ahead index (n.numbering.groupAt (n.parameters.groupOf index) row n.parameters.groups) 0 :=
  have hgroup := Parameters.groupOf_lt hi
  ⟨hi, Numbering.groupAt_lt n.inWords hgroup hrow, (Numbering.groupAt_ne n.inWords hgroup hrow).symm,
    n.checked.links_pos⟩

theorem serves_rowExit (hrow : row < n.parameters.rows) :
    n.Serves row 0 (n.rowExit (n.parameters.groupOf index) row) := by
  have h := (ahead_of_row hi hrow).serves
  rwa [Numbering.rowOf_groupAt n.inWords (Parameters.groupOf_lt hi) hrow] at h

/-- Different rows have different exits. -/
theorem nodup_firstExits : (n.firstExits index).Nodup := by
  refine List.Nodup.map_on ?_ (List.nodup_range.filter _)
  intro row hrow row' hrow' hport
  simp only [List.mem_filter, List.mem_range, decide_eq_true_iff] at hrow hrow'
  have hserved := (serves_rowExit hi hrow.1).served_eq
  rw [hrow.2.trans hrow'.2.symm, hport, (serves_rowExit hi hrow'.1).served_eq] at hserved
  exact (Prod.mk.inj (Option.some.inj hserved)).1.symm

/-- The first exits of a router are those by which it is a gate. -/
theorem mem_firstExits_iff {port : Nat} :
    port ∈ n.firstExits index ↔ ∃ group, n.Ahead index group 0 ∧ n.isGate index group 0 = true ∧
      port = (n.exitTo (n.parameters.groupOf index) group 0).port.toNat := by
  simp only [firstExits, List.mem_map, List.mem_filter, List.mem_range, decide_eq_true_iff]
  constructor
  · rintro ⟨row, ⟨hrow, hposition⟩, rfl⟩
    exact ⟨_, ahead_of_row hi hrow, (ahead_of_row hi hrow).isGate_iff.mpr hposition, rfl⟩
  · rintro ⟨group, hahead, hgate, rfl⟩
    have hexit : n.rowExit (n.parameters.groupOf index)
        (n.numbering.rowOf (n.parameters.groupOf index) group n.parameters.groups) =
        n.exitTo (n.parameters.groupOf index) group 0 := by
      rw [rowExit, Numbering.groupAt_rowOf n.inWords hahead.here_lt hahead.group_lt hahead.ne]
    refine ⟨_, ⟨Numbering.rowOf_lt n.inWords hahead.here_lt hahead.group_lt hahead.ne, ?_⟩, ?_⟩
    · rw [hexit]
      exact hahead.isGate_iff.mp hgate
    · rw [hexit]

end FirstExits

/-! ### The ports by which copies leave -/

/-- The ports by which a router sends on what a group sent to every host, when it came by a port of a class. -/
def copyPorts (n : Installation) (index origin portIn : Nat) (cameBy : PortClass) : List Nat :=
  (List.range n.parameters.hosts).filter (fun port => cameBy ≠ .host || port ≠ portIn) ++
      (if cameBy = .sibling then []
      else (List.range (n.parameters.routers - 1)).map (n.parameters.firstSibling + ·)) ++
    if cameBy ≠ .exit ∧ origin = n.parameters.groupOf index then n.firstExits index else []

theorem mem_siblingPorts_iff {p : Parameters} {port : Nat} :
    port ∈ (List.range (p.routers - 1)).map (p.firstSibling + ·) ↔ p.classOf? port = some .sibling := by
  rw [List.mem_map]
  constructor
  · rintro ⟨offset, hoffset, rfl⟩
    rw [List.mem_range] at hoffset
    refine Parameters.classOf?_sibling (Nat.le_add_right _ _) ?_
    rw [Parameters.firstSibling, Parameters.firstExit]
    omega
  · intro h
    have hb := Parameters.bounds_of_sibling h
    rw [Parameters.firstExit] at hb
    refine ⟨port - p.hosts, List.mem_range.mpr (by omega), ?_⟩
    rw [Parameters.firstSibling]
    omega

theorem mem_copyPorts_iff {origin portIn port : Nat} {cameBy : PortClass} :
    port ∈ n.copyPorts index origin portIn cameBy ↔
      (port < n.parameters.hosts ∧ (cameBy = .host → port ≠ portIn)) ∨
      (cameBy ≠ .sibling ∧ n.parameters.classOf? port = some .sibling) ∨
      (cameBy ≠ .exit ∧ origin = n.parameters.groupOf index ∧ port ∈ n.firstExits index) := by
  rw [copyPorts, List.mem_append, List.mem_append, or_assoc]
  refine or_congr ?_ (or_congr ?_ ?_)
  · rw [List.mem_filter, List.mem_range, Bool.or_eq_true, decide_eq_true_iff, decide_eq_true_iff, imp_iff_not_or]
  · split
    · next h => simp [h]
    · next h => simp only [mem_siblingPorts_iff, ne_eq, h, not_false_eq_true, true_and]
  · split
    · next h => simp only [h.1, h.2, ne_eq, not_false_eq_true, true_and]
    · next h => simp only [List.not_mem_nil, false_iff, not_and]; exact fun h' h'' _ => h ⟨h', h''⟩

/-- The first exits of a router are global ports. -/
theorem classOf?_of_mem_firstExits (hi : index < n.parameters.routerCount) {port : Nat}
    (h : port ∈ n.firstExits index) : n.parameters.classOf? port = some .exit := by
  obtain ⟨group, hahead, -, rfl⟩ := (mem_firstExits_iff hi).mp h
  exact hahead.serves.class_eq

/-- No port is named twice, as the classes of ports are apart. -/
theorem nodup_copyPorts (hi : index < n.parameters.routerCount) (origin portIn : Nat) (cameBy : PortClass) :
    (n.copyPorts index origin portIn cameBy).Nodup := by
  have hclass {port : Nat} {kind kind' : PortClass} (h : n.parameters.classOf? port = some kind)
      (h' : n.parameters.classOf? port = some kind') : kind = kind' :=
    Option.some.inj (h.symm.trans h')
  have hsiblings : ((List.range (n.parameters.routers - 1)).map (n.parameters.firstSibling + ·)).Nodup :=
    List.nodup_range.map fun _ _ => Nat.add_left_cancel
  rw [copyPorts, List.nodup_append', List.nodup_append']
  refine ⟨⟨List.nodup_range.filter _, ?_, ?_⟩, ?_, ?_⟩
  · split
    · exact List.nodup_nil
    · exact hsiblings
  · intro port hhost hsibling
    rw [List.mem_filter, List.mem_range] at hhost
    split at hsibling
    · cases hsibling
    · cases hclass (Parameters.classOf?_host hhost.1) (mem_siblingPorts_iff.mp hsibling)
  · split
    · exact nodup_firstExits hi
    · exact List.nodup_nil
  · intro port hport hexit
    split at hexit
    · have hglobal := classOf?_of_mem_firstExits hi hexit
      rcases List.mem_append.mp hport with hhost | hsibling
      · rw [List.mem_filter, List.mem_range] at hhost
        cases hclass (Parameters.classOf?_host hhost.1) hglobal
      · split at hsibling
        · cases hsibling
        · cases hclass (mem_siblingPorts_iff.mp hsibling) hglobal
    · cases hexit

/-! ### Where they lead -/

section Leads

variable (hi : index < n.parameters.routerCount) {port next nextPort : Nat}

include hi

omit hi in
/-- The parts of the number of a host. -/
theorem parts_of_host (hport : port < n.parameters.hosts) (hat : host = index * n.parameters.hosts + port) :
    n.home host = index ∧ host % n.parameters.hosts = port := by
  rw [home, hat]
  exact ⟨Grid.place_div hport index, Grid.place_mod hport index⟩

/-- A port to a sibling leads to another router of the group. -/
theorem sibling_of_peer (hclass : n.parameters.classOf? port = some .sibling)
    (hpeer : (n.fabric.link index port).peer = .router next nextPort) :
    next < n.parameters.routerCount ∧ n.parameters.groupOf next = n.parameters.groupOf index ∧ next ≠ index ∧
      nextPort = n.parameters.portToSibling (n.parameters.positionOf next) (n.parameters.positionOf index) := by
  have hposition := Parameters.positionOf_lt n.checked.routers_pos index
  have hother := Parameters.siblingBehind_lt hclass hposition
  rw [Fabric.link_sibling (by rwa [fabric_parameters]), fabric_parameters] at hpeer
  cases hpeer
  rw [Parameters.groupOf_routerAt hother, Parameters.positionOf_routerAt hother]
  refine ⟨Parameters.routerAt_lt (Parameters.groupOf_lt hi) hother, rfl, fun heq => ?_, rfl⟩
  have hsame := congrArg n.parameters.positionOf heq
  rw [Parameters.positionOf_routerAt hother] at hsame
  exact Parameters.siblingBehind_ne _ hclass hsame

/-- No copy is sent through a port that leads nowhere. -/
theorem leads_somewhere {origin portIn : Nat} {cameBy : PortClass}
    (hport : port ∈ n.copyPorts index origin portIn cameBy) : (n.fabric.link index port).peer ≠ .nothing := by
  intro hnothing
  rcases mem_copyPorts_iff.mp hport with ⟨hhost, -⟩ | ⟨-, hsibling⟩ | ⟨-, -, hexit⟩
  · rw [Fabric.link_host (by rwa [fabric_parameters])] at hnothing
    cases hnothing
  · rw [Fabric.link_sibling (by rwa [fabric_parameters])] at hnothing
    cases hnothing
  · obtain ⟨group, hahead, hgate, rfl⟩ := (mem_firstExits_iff hi).mp hexit
    rw [(hahead.link_of_isGate hgate).1] at hnothing
    cases hnothing

variable (hs : source < n.parameters.hostCount) {cameBy : PortClass}
  (hcame : n.parameters.classOf? (n.straightPort index source 0) = some cameBy)

include hs hcame

/-- A copy that comes by the port of the straight way came from a host at home, from another group at a gate, and
from a sibling anywhere else. -/
theorem cameBy_eq :
    cameBy = if index = n.home source then .host
      else if n.parameters.groupOf index ≠ n.homeGroup source ∧ n.isGate index (n.homeGroup source) 0 = true then .exit
      else .sibling := by
  rw [classOf?_straightPort hi hs n.checked.links_pos] at hcame
  exact (Option.some.inj hcame).symm

/-- The router of the source sends a copy to each sibling. -/
theorem copyPort_within (hgroup : n.parameters.groupOf next = n.homeGroup source) (haway : next ≠ n.home source)
    (hnext : n.straightNext next source 0 = index) :
    ∃ port ∈ n.copyPorts index (n.homeGroup source) (n.straightPort index source 0) cameBy,
      (n.fabric.link index port).peer = .router next (n.straightPort next source 0) := by
  obtain ⟨hport, hhome⟩ := straight_within 0 hgroup haway
  rw [hnext] at hhome
  subst hhome
  obtain ⟨hclass, hlink⟩ := link_within hgroup.symm haway.symm
  have hcameBy := cameBy_eq hi hs hcame
  rw [if_pos rfl] at hcameBy
  exact ⟨_, mem_copyPorts_iff.mpr (.inr (.inl ⟨by rw [hcameBy]; decide, hclass⟩)), by rw [hlink, hport]⟩

/-- So does a gate, which got its copy from another group. -/
theorem copyPort_aside (hahead : n.Ahead next (n.homeGroup source) 0)
    (hgate : n.isGate next (n.homeGroup source) 0 = false) (hnext : n.straightNext next source 0 = index) :
    ∃ port ∈ n.copyPorts index (n.homeGroup source) (n.straightPort index source 0) cameBy,
      (n.fabric.link index port).peer = .router next (n.straightPort next source 0) := by
  obtain ⟨hport, hisNext⟩ := straight_aside hahead hgate
  have hgroup := n.groupOf_gate hahead.here_lt hahead.group_lt hahead.ne hahead.slot_lt
  rw [hnext] at hisNext
  rw [← hisNext] at hport hgroup
  have hexit : n.parameters.groupOf index ≠ n.homeGroup source ∧ n.isGate index (n.homeGroup source) 0 = true :=
    ⟨fun heq => hahead.ne (hgroup.symm.trans heq), isGate_iff_eq.mpr (by rw [hgroup]; exact hisNext)⟩
  have hne : index ≠ next := fun heq => by
    rw [← heq, hexit.2] at hgate
    cases hgate
  obtain ⟨hclass, hlink⟩ := link_within hgroup hne
  have hcameBy := cameBy_eq hi hs hcame
  rw [if_neg (fun heq => hexit.1 (congrArg _ heq)), if_pos hexit] at hcameBy
  exact ⟨_, mem_copyPorts_iff.mpr (.inr (.inl ⟨by rw [hcameBy]; decide, hclass⟩)), by rw [hlink, hport]⟩

/-- The gate of another group gets its copy from the gate of the group of the source. -/
theorem copyPort_across (hahead : n.Ahead next (n.homeGroup source) 0)
    (hgate : n.isGate next (n.homeGroup source) 0 = true) (hnext : n.straightNext next source 0 = index) :
    ∃ port ∈ n.copyPorts index (n.homeGroup source) (n.straightPort index source 0) cameBy,
      (n.fabric.link index port).peer = .router next (n.straightPort next source 0) := by
  obtain ⟨hport, hisNext⟩ := straight_across hahead hgate
  rw [hnext] at hisNext
  have hhere := n.groupOf_gate hahead.group_lt hahead.here_lt hahead.ne.symm hahead.slot_lt
  rw [← hisNext] at hhere
  have hback : n.Ahead index (n.parameters.groupOf next) 0 :=
    ⟨hi, hahead.here_lt, by rw [hhere]; exact hahead.ne.symm, hahead.slot_lt⟩
  have hexit : cameBy ≠ .exit := by
    rw [cameBy_eq hi hs hcame]
    split
    · decide
    · rw [if_neg fun h => h.1 hhere]
      decide
  have hlink := n.link_gate hahead.group_lt hahead.here_lt hahead.ne.symm hahead.slot_lt
  rw [← isGate_iff_eq.mp hgate, ← hisNext] at hlink
  refine ⟨_, mem_copyPorts_iff.mpr (.inr (.inr ⟨hexit, hhere.symm, ?_⟩)), by rw [hlink, hport]⟩
  exact (mem_firstExits_iff hi).mpr ⟨_, hback, isGate_iff_eq.mpr (by rw [hhere]; exact hisNext), by rw [hhere]⟩

omit hi hs hcame in
/-- The other way round, a gate is the next router on the straight ways of its siblings. -/
theorem straight_to_gate (hahead : n.Ahead index (n.homeGroup source) 0)
    (hgate : n.isGate index (n.homeGroup source) 0 = true) (hn : next < n.parameters.routerCount)
    (hgroup : n.parameters.groupOf next = n.parameters.groupOf index) (hne : next ≠ index) :
    n.straightNext next source 0 = index ∧
      n.straightPort next source 0 =
        n.parameters.portToSibling (n.parameters.positionOf next) (n.parameters.positionOf index) := by
  have hisGate := isGate_iff_eq.mp hgate
  have hnot : n.isGate next (n.homeGroup source) 0 = false := by
    rw [Bool.eq_false_iff]
    intro h
    rw [isGate_iff_eq, hgroup, ← hisGate] at h
    exact hne h
  obtain ⟨hport, hnext⟩ :=
    straight_aside ⟨hn, hahead.group_lt, by rw [hgroup]; exact hahead.ne, hahead.slot_lt⟩ hnot
  rw [hgroup, ← hisGate] at hport hnext
  exact ⟨hnext, hport⟩

/-- Where copies go on to siblings, this router is the next one on their straight ways. -/
theorem straight_of_sibling (hnot : cameBy ≠ .sibling) (hn : next < n.parameters.routerCount)
    (hgroup : n.parameters.groupOf next = n.parameters.groupOf index) (hne : next ≠ index) :
    next ≠ n.home source ∧ n.straightNext next source 0 = index ∧
      n.straightPort next source 0 =
        n.parameters.portToSibling (n.parameters.positionOf next) (n.parameters.positionOf index) := by
  rw [cameBy_eq hi hs hcame] at hnot
  by_cases hhome : index = n.home source
  · subst hhome
    obtain ⟨hport, hnext⟩ := straight_within 0 hgroup hne
    exact ⟨hne, hnext, hport⟩
  · rw [if_neg hhome] at hnot
    split at hnot
    · next hgate =>
      have hahead := ahead_of_away hi hs n.checked.links_pos hgate.1
      obtain ⟨hnext, hport⟩ := straight_to_gate hahead hgate.2 hn hgroup hne
      exact ⟨fun heq => hgate.1 (by rw [← hgroup, heq]), hnext, hport⟩
    · exact absurd rfl hnot

omit hi hs hcame in
/-- So it is where they go on to other groups. -/
theorem straight_of_exit {group : Nat} (hhere : n.homeGroup source = n.parameters.groupOf index)
    (hahead : n.Ahead index group 0) (hgate : n.isGate index group 0 = true) :
    n.gate group (n.parameters.groupOf index) 0 < n.parameters.routerCount ∧
      n.gate group (n.parameters.groupOf index) 0 ≠ n.home source ∧
      n.straightNext (n.gate group (n.parameters.groupOf index) 0) source 0 = index ∧
      n.straightPort (n.gate group (n.parameters.groupOf index) 0) source 0 =
        (n.exitTo group (n.parameters.groupOf index) 0).port.toNat := by
  obtain ⟨-, hback, hbackGate⟩ := hahead.link_of_isGate hgate
  have hgroup := n.groupOf_gate hahead.group_lt hahead.here_lt hahead.ne.symm hahead.slot_lt
  have hisGate := isGate_iff_eq.mp hgate
  rw [← hhere] at hback hbackGate hgroup hisGate ⊢
  obtain ⟨hport, hnext⟩ := straight_across hback hbackGate
  rw [hgroup] at hport hnext
  exact ⟨hback.index_lt, fun heq => hback.ne (congrArg _ heq), hnext.trans hisGate.symm, hport⟩

/-- **Copies go on to the routers for which this one is the next on their straight ways**, and come there by the
ports of these ways. -/
theorem leads_on_iff :
    (∃ port ∈ n.copyPorts index (n.homeGroup source) (n.straightPort index source 0) cameBy,
        (n.fabric.link index port).peer = .router next nextPort) ↔
      next < n.parameters.routerCount ∧ next ≠ n.home source ∧ n.straightNext next source 0 = index ∧
        nextPort = n.straightPort next source 0 := by
  constructor
  · rintro ⟨port, hport, hpeer⟩
    rcases mem_copyPorts_iff.mp hport with ⟨hhost, -⟩ | ⟨hnot, hsibling⟩ | ⟨-, hhere, hexit⟩
    · rw [Fabric.link_host (by rwa [fabric_parameters])] at hpeer
      cases hpeer
    · obtain ⟨hlt, hgroup, hne, rfl⟩ := sibling_of_peer hi hsibling hpeer
      obtain ⟨haway, hnext, hport⟩ := straight_of_sibling hi hs hcame hnot hlt hgroup hne
      exact ⟨hlt, haway, hnext, hport.symm⟩
    · obtain ⟨group, hahead, hgate, rfl⟩ := (mem_firstExits_iff hi).mp hexit
      obtain ⟨hlt, haway, hnext, hport⟩ := straight_of_exit hhere hahead hgate
      rw [(hahead.link_of_isGate hgate).1] at hpeer
      cases hpeer
      exact ⟨hlt, haway, hnext, hport.symm⟩
  · rintro ⟨hlt, haway, hnext, rfl⟩
    by_cases hgroup : n.parameters.groupOf next = n.homeGroup source
    · exact copyPort_within hi hs hcame hgroup haway hnext
    · have hahead := ahead_of_away hlt hs n.checked.links_pos hgroup
      cases hgate : n.isGate next (n.homeGroup source) 0 with
      | false => exact copyPort_aside hi hs hcame hahead hgate hnext
      | true => exact copyPort_across hi hs hcame hahead hgate hnext

/-- The hosts of the router get a copy, but for the source. -/
theorem serves_iff :
    (∃ port ∈ n.copyPorts index (n.homeGroup source) (n.straightPort index source 0) cameBy,
        (n.fabric.link index port).peer = .server host) ↔ n.home host = index ∧ host ≠ source := by
  have hcameBy := cameBy_eq hi hs hcame
  constructor
  · rintro ⟨port, hport, hpeer⟩
    obtain ⟨hhost, hat⟩ := n.eq_of_server hi hpeer
    have hclass := Parameters.classOf?_host hhost
    obtain ⟨hhome, hmod⟩ := parts_of_host hhost hat
    refine ⟨hhome, ?_⟩
    rintro rfl
    rw [if_pos hhome.symm] at hcameBy
    rcases mem_copyPorts_iff.mp hport with ⟨-, hother⟩ | ⟨-, hsibling⟩ | ⟨-, -, hexit⟩
    · exact hother hcameBy (by rw [straightPort, if_pos hhome.symm, hmod])
    · rw [hclass] at hsibling
      cases hsibling
    · rw [classOf?_of_mem_firstExits hi hexit] at hclass
      cases hclass
  · rintro ⟨rfl, hne⟩
    refine ⟨_, mem_copyPorts_iff.mpr (.inl ⟨Nat.mod_lt host n.checked.hosts_pos, fun hhost heq => hne ?_⟩),
      congrArg Link.peer (link_home hi)⟩
    rw [hhost] at hcameBy
    split at hcameBy
    · next hhome =>
      rw [straightPort, if_pos hhome] at heq
      rw [← Nat.div_add_mod host n.parameters.hosts, heq, show host / n.parameters.hosts = _ from hhome,
        Nat.div_add_mod]
    · split at hcameBy <;> cases hcameBy

end Leads

end Installation

namespace Router.InService

variable {r : Router} {k : Packet}

theorem firstExits_eq (hr : r.InService n index) : r.site.firstExits = .ok (n.firstExits index) := by
  have hexits : (List.range r.site.parameters.rows).mapM (r.site.table.lookup · 0) =
      .ok ((List.range n.parameters.rows).map (n.rowExit (n.parameters.groupOf index))) := by
    rw [hr.parameters_eq, hr.table_eq]
    refine mapM_eq_ok _ fun row hrow => ?_
    exact (Installation.serves_rowExit hr.index_lt (List.mem_range.mp hrow)).lookup_eq
  rw [Site.firstExits, hexits]
  show Except.ok _ = Except.ok _
  rw [hr.position_eq, List.filter_map, List.map_map]
  rfl

/-- **What is for every host leaves a router by `copyPorts`.** -/
theorem announcePorts_eq (hr : r.InService n index) (hk : k.dest.isEveryone = true) {portIn : Nat}
    {cameBy : PortClass} (hclass : n.parameters.classOf? portIn = some cameBy) :
    r.site.announcePorts portIn k = .ok (n.copyPorts index k.origin.toNat portIn cameBy) := by
  rw [Site.announcePorts, if_pos hk, Site.spreadPorts, hr.parameters_eq, Parameters.classOf_ok hclass,
    hr.group_eq, hr.firstExits_eq, Installation.copyPorts]
  dsimp only [bind, Except.bind]
  by_cases hexits : cameBy ≠ .exit ∧ k.origin.toNat = n.parameters.groupOf index
  · rw [if_pos hexits, if_pos hexits]
    rfl
  · rw [if_neg hexits, if_neg hexits]
    rfl

end Router.InService

/-! ### What a network makes of the ports -/

namespace Peer

def router? : Peer → Option (Nat × Nat)
  | .router next port => some (next, port)
  | _ => none

def server? : Peer → Option Nat
  | .server host => some host
  | _ => none

theorem router?_eq_some_iff {peer : Peer} {next port : Nat} :
    peer.router? = some (next, port) ↔ peer = .router next port := by
  cases peer <;> simp [router?]

theorem server?_eq_some_iff {peer : Peer} {host : Nat} : peer.server? = some host ↔ peer = .server host := by
  cases peer <;> simp [server?]

end Peer

namespace Network.InService

variable {net : Network} (h : net.InService n) {ports : List Nat}

include h

theorem spread_eq (index : Nat) (ports : List Nat) :
    net.spread index ports =
      .ok (ports.filterMap fun port => (n.fabric.link index port).peer.router?,
        ports.filterMap fun port => (n.fabric.link index port).peer.server?,
        (ports.map fun port => (n.fabric.link index port).peer).count .nothing) := by
  have hpeers : ports.mapM (net.peer index) = .ok (ports.map fun port => (n.fabric.link index port).peer) :=
    mapM_eq_ok ports fun port _ => h.peer_eq index port
  rw [spread, hpeers]
  dsimp only [bind, Except.bind, pure, Except.pure]
  rw [List.filterMap_map, List.filterMap_map]
  rfl

/-- What a router spreads to by ports that are all different: routers with the ports where the copies arrive,
and servers. -/
theorem spread_spec (hi : index < n.parameters.routerCount) (hnodup : ports.Nodup)
    (hleads : ∀ port ∈ ports, (n.fabric.link index port).peer ≠ .nothing) :
    ∃ routers servers, net.spread index ports = .ok (routers, servers, 0) ∧
      routers.Nodup ∧ (∀ next nextPort, (next, nextPort) ∈ routers ↔
        ∃ port ∈ ports, (n.fabric.link index port).peer = .router next nextPort) ∧
      servers.Nodup ∧ ∀ host, host ∈ servers ↔
        ∃ port ∈ ports, (n.fabric.link index port).peer = .server host := by
  have hlost : (ports.map fun port => (n.fabric.link index port).peer).count .nothing = 0 := by
    rw [List.count_eq_zero, List.mem_map]
    rintro ⟨port, hport, hnothing⟩
    exact hleads port hport hnothing
  refine ⟨_, _, by rw [h.spread_eq, hlost], ?_, ?_, ?_, ?_⟩
  · refine hnodup.filterMap fun port port' ⟨next, nextPort⟩ hport hport' => ?_
    exact n.port_eq_of_peer_eq hi (Peer.router?_eq_some_iff.mp hport) (Peer.router?_eq_some_iff.mp hport')
  · intro next nextPort
    simp only [List.mem_filterMap, Peer.router?_eq_some_iff]
  · refine hnodup.filterMap fun port port' server hport hport' => ?_
    have hat := (n.eq_of_server hi (Peer.server?_eq_some_iff.mp hport)).2
    rw [(n.eq_of_server hi (Peer.server?_eq_some_iff.mp hport')).2] at hat
    exact (Nat.add_left_cancel hat).symm
  · intro host
    simp only [List.mem_filterMap, Peer.server?_eq_some_iff]

end Network.InService

end DragonflyFabric
