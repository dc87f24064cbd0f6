import DragonflyFabric.Proofs.Wiring.Complete
import DragonflyFabric.Proofs.Wiring.Search
import Mathlib.Data.List.Nodup

/-!
# Every two groups are joined alike

Where a table was made of the link map, the slots of a row are served by the global ports of a group once each
(`LinkMap.slotsOf_perm`), whatever the map. Hence as many links join any two groups as there are slots
(`Fabric.count_neighbours`, which `Fabric.exists_trunking` adds up link by link), and from every router another one is
reached by a link of its group, a global one and a link of the other group at most (`Fabric.exists_way`).

None of this asks whether the links lead back, nor whether places fit in an exit: only the group that a link
leads to counts.
-/

namespace DragonflyFabric

open ExitTable.Draft (exitPlaces mem_exitPlaces)

namespace LinkMap

variable {m : LinkMap} {p : Parameters} {table : ExitTable.View} {row slot : Nat}

/-- The slots of a row that the global ports of a group serve, port by port. -/
def slotsOf (m : LinkMap) (p : Parameters) (row : Nat) : List Nat :=
  (exitPlaces p).filterMap fun place =>
    (m.link? p place.1 place.2).bind fun served => if served.1 = row then some served.2 else none

theorem slot_eq_some_iff {place : Nat × Nat} :
    ((m.link? p place.1 place.2).bind fun served => if served.1 = row then some served.2 else none) = some slot ↔
      m.link? p place.1 place.2 = some (row, slot) := by
  constructor
  · intro h
    obtain ⟨⟨row', slot'⟩, hlink, h⟩ := Option.bind_eq_some_iff.mp h
    split at h
    · next hrow =>
      cases h
      rw [hlink, ← hrow]
    · cases h
  · intro h
    rw [h, Option.bind_some, if_pos rfl]

theorem mem_slotsOf : slot ∈ m.slotsOf p row ↔
    ∃ position index, position < p.routers ∧ index < p.exits ∧ m.link? p position index = some (row, slot) := by
  rw [slotsOf, List.mem_filterMap]
  constructor
  · rintro ⟨⟨position, index⟩, hplace, hslot⟩
    obtain ⟨hp, hi⟩ := mem_exitPlaces.mp hplace
    exact ⟨position, index, hp, hi, slot_eq_some_iff.mp hslot⟩
  · rintro ⟨position, index, hp, hi, hlink⟩
    exact ⟨(position, index), mem_exitPlaces.mpr ⟨hp, hi⟩, slot_eq_some_iff.mpr hlink⟩

/-- **The global ports of a group serve each slot of a row once.** -/
theorem slotsOf_perm (htable : ExitTable.View.ofLinkMap p m = .ok table) (hr : row < p.rows) :
    (m.slotsOf p row).Perm (List.range p.links) := by
  have hmade := htable
  rw [ExitTable.View.ofLinkMap] at hmade
  obtain ⟨d, hd, -⟩ := ok_of_bind_ok hmade
  have hnodup : (m.slotsOf p row).Nodup := by
    rw [slotsOf, List.Nodup, List.pairwise_filterMap]
    refine (ExitTable.Draft.pairwise_apart hd).imp fun hapart slot hslot slot' hslot' heq => ?_
    subst heq
    exact hapart (row, slot) (slot_eq_some_iff.mp hslot) (slot_eq_some_iff.mp hslot')
  refine (List.perm_ext_iff_of_nodup hnodup List.nodup_range).mpr fun slot => ?_
  rw [mem_slotsOf, List.mem_range]
  constructor
  · rintro ⟨position, index, hp, hi, hlink⟩
    exact (ExitTable.View.lookup_of_link? htable hp hi hlink).2.1
  · intro hs
    obtain ⟨position, index, hp, hi, hlink, -⟩ := ExitTable.View.lookup_of_ofLinkMap htable hr hs
    exact ⟨position, index, hp, hi, hlink⟩

end LinkMap

namespace Fabric

variable {p : Parameters} {m : LinkMap} {table : ExitTable.View} {numbering : Numbering}
  {group other position index row slot router port : Nat}

/-! ### Counting links -/

/-- For every two of so many groups, how many links have been counted. -/
structure Counted (groups : Nat) (links : Nat → Nat → Nat) (trunks : Grid Nat) : Prop where
  columns_eq : trunks.columns = groups
  size_eq : trunks.cells.size = groups * groups
  get?_eq : ∀ group other, group < groups → other < groups → trunks.get? group other = some (links group other)

section Counted

variable {groups : Nat} {links : Nat → Nat → Nat} {trunks : Grid Nat} (hwords : groups * groups ≤ 2 ^ 64)

include hwords

theorem counted_constant : Counted groups (fun _ _ => 0) (.constant 0 groups groups) where
  columns_eq := rfl
  size_eq := Array.size_replicate
  get?_eq := fun _ _ => Grid.get?_constant hwords

theorem Counted.countLink (h : Counted groups links trunks) (hg : group < groups) (ho : other < groups) :
    ∃ trunks', countLink group trunks other = .ok trunks' ∧
      Counted groups (fun i j => links i j + if i = group ∧ j = other then 1 else 0) trunks' := by
  have hcolumns := h.columns_eq
  obtain ⟨trunks', hmodify, hcolumns', hsize', hget⟩ := Grid.exists_modifyCell? (by rwa [hcolumns])
    (h.size_eq.trans (by rw [hcolumns])) hg (by rwa [hcolumns]) (· + 1)
  refine ⟨trunks', by rw [Fabric.countLink, hmodify]; rfl, hcolumns'.trans hcolumns, hsize'.trans h.size_eq, ?_⟩
  intro i j hi hj
  rw [hget i j hi, h.get?_eq i j hi hj]
  split <;> rfl

/-- Link by link, those of one group. -/
theorem Counted.foldlM_countLink (hg : group < groups) (others : List Nat) (h : Counted groups links trunks)
    (hothers : ∀ other ∈ others, other < groups) :
    ∃ trunks', others.foldlM (Fabric.countLink group) trunks = .ok trunks' ∧
      Counted groups (fun i j => links i j + if i = group then others.count j else 0) trunks' := by
  induction others generalizing links trunks with
  | nil => exact ⟨trunks, rfl, by simpa using h⟩
  | cons other rest ih =>
    obtain ⟨ho, hrest⟩ := List.forall_mem_cons.mp hothers
    obtain ⟨trunks₁, hcount, h₁⟩ := h.countLink hwords hg ho
    obtain ⟨trunks', hfold, h'⟩ := ih h₁ hrest
    refine ⟨trunks', by rw [List.foldlM_cons, hcount]; exact hfold, ?_⟩
    have hlinks : (fun i j => links i j + if i = group then (other :: rest).count j else 0) =
        fun i j => (links i j + if i = group ∧ j = other then 1 else 0) + if i = group then rest.count j else 0 := by
      funext i j
      rw [List.count_cons, Nat.add_assoc]
      by_cases hi : i = group
      · by_cases hj : other = j
        · simp [hi, hj, Nat.add_comm]
        · simp [hi, hj, Ne.symm hj]
      · simp [hi]
    rwa [hlinks]

/-- Group by group. -/
theorem Counted.foldlM_groups (neighbours : Nat → List Nat) (list : List Nat) (h : Counted groups links trunks)
    (hnodup : list.Nodup) (hlist : ∀ group ∈ list, group < groups)
    (hothers : ∀ group ∈ list, ∀ other ∈ neighbours group, other < groups) :
    ∃ trunks', list.foldlM (fun trunks group => (neighbours group).foldlM (Fabric.countLink group) trunks) trunks =
        .ok trunks' ∧
      Counted groups (fun i j => links i j + if i ∈ list then (neighbours i).count j else 0) trunks' := by
  induction list generalizing links trunks with
  | nil => exact ⟨trunks, rfl, by simpa using h⟩
  | cons group rest ih =>
    obtain ⟨hg, hrest⟩ := List.forall_mem_cons.mp hlist
    obtain ⟨hnew, hnodup⟩ := List.nodup_cons.mp hnodup
    obtain ⟨hfirst, hothers⟩ := List.forall_mem_cons.mp hothers
    obtain ⟨trunks₁, hcount, h₁⟩ := h.foldlM_countLink hwords hg _ hfirst
    obtain ⟨trunks', hfold, h'⟩ := ih h₁ hnodup hrest hothers
    refine ⟨trunks', by rw [List.foldlM_cons, hcount]; exact hfold, ?_⟩
    have hlinks : (fun i j => links i j + if i ∈ group :: rest then (neighbours i).count j else 0) =
        fun i j => (links i j + if i = group then (neighbours group).count j else 0) +
          if i ∈ rest then (neighbours i).count j else 0 := by
      funext i j
      by_cases hi : i = group
      · subst hi
        simp [hnew]
      · simp [hi]
    rwa [hlinks]

end Counted

/-- The trunks between two groups are the global ports of the one that lead to the other. -/
theorem exists_trunking (f : Fabric) (hroom : Storage.holds (f.parameters.groups * f.parameters.groups) 8)
    (hothers : ∀ group < f.parameters.groups, ∀ other ∈ f.neighbours group, other < f.parameters.groups) :
    ∃ trunks, f.trunking = .ok trunks ∧ ∀ group other, group < f.parameters.groups → other < f.parameters.groups →
      trunks.get? group other = some ((f.neighbours group).count other) := by
  have hwords := Storage.count_le (by decide) hroom
  obtain ⟨trunks, htrunks, h⟩ := (counted_constant hwords).foldlM_groups hwords f.neighbours
    (List.range f.parameters.groups) List.nodup_range (fun _ => List.mem_range.mp)
    fun group hg => hothers group (List.mem_range.mp hg)
  refine ⟨trunks, ?_, fun group other hg ho => ?_⟩
  · rw [trunking, Grid.constant?, if_pos hroom]
    exact htrunks
  · rw [h.get?_eq group other hg ho, Nat.zero_add, if_pos (List.mem_range.mpr hg)]

theorem trunking_eq_abort (f : Fabric)
    (hroom : ¬ Storage.holds (f.parameters.groups * f.parameters.groups) 8) : f.trunking = .error .abort := by
  rw [trunking, Grid.constant?, if_neg hroom]
  rfl

section Groups

variable (hcounts : p.Checked) (htable : ExitTable.View.ofLinkMap p m = .ok table)

include hcounts htable

theorem inWords_of_ofLinkMap (numbering : Numbering) : numbering.InWords p.groups :=
  ExitTable.View.inWords htable hcounts.links_pos numbering

/-- A global port that serves a row leads to a router of the group of that row. -/
theorem link_across (numbering : Numbering) (hg : group < p.groups) (hp : position < p.routers) (hi : index < p.exits)
    (hlink : m.link? p position index = some (row, slot)) : ∃ e : Exit, e.router.toNat < p.routers ∧
      (ofParts p numbering table m).link (p.routerAt group position) (p.exitPort index) =
        ⟨.router (p.routerAt (numbering.groupAt group row p.groups) e.router.toNat) e.port.toNat,
          Link.globalKind⟩ := by
  have hw := inWords_of_ofLinkMap hcounts htable numbering
  obtain ⟨hrow, hslot, -⟩ := ExitTable.View.lookup_of_link? htable hp hi hlink
  have hback := Numbering.rowOf_lt hw (Numbering.groupAt_lt hw hg hrow) hg (Numbering.groupAt_ne hw hg hrow)
  obtain ⟨position', index', hp', -, -, hlookup⟩ := ExitTable.View.lookup_of_ofLinkMap htable hback hslot
  refine ⟨.ofPlace position' (p.exitPort index'), Nat.lt_of_le_of_lt (Nat.mod_le _ _) hp', ?_⟩
  rw [link_ofParts_of_some numbering table group hp hi (hcounts.classOf?_exitPort hi) hlink, across_of_lookup hlookup]
  rfl

/-- The groups that the global ports of a group lead to are those of the rows they serve. -/
theorem neighbours_ofParts (numbering : Numbering) (hg : group < p.groups) :
    (ofParts p numbering table m).neighbours group = (exitPlaces p).filterMap fun place =>
      (m.link? p place.1 place.2).map fun served => numbering.groupAt group served.1 p.groups := by
  rw [neighbours, exitPlaces, List.filterMap_flatMap]
  refine List.flatMap_congr fun position hposition => ?_
  rw [List.filterMap_map]
  refine List.filterMap_congr fun index hindex => ?_
  have hp : position < p.routers := List.mem_range.mp hposition
  have hi : index < p.exits := List.mem_range.mp hindex
  dsimp only [Function.comp_apply]
  cases hlink : m.link? p position index with
  | none =>
    have hidle := link_ofParts_of_none numbering table group hp hi (hcounts.classOf?_exitPort hi) hlink
    rw [ofParts_parameters, hidle]
    rfl
  | some served =>
    obtain ⟨e, he, hleads⟩ := link_across hcounts htable numbering hg hp hi hlink
    rw [ofParts_parameters, hleads]
    exact congrArg some (Parameters.groupOf_routerAt he)

/-- They are groups of the network. -/
theorem lt_of_mem_neighbours (numbering : Numbering) (hg : group < p.groups)
    (ho : other ∈ (ofParts p numbering table m).neighbours group) : other < p.groups := by
  have hw := inWords_of_ofLinkMap hcounts htable numbering
  rw [neighbours_ofParts hcounts htable numbering hg, List.mem_filterMap] at ho
  obtain ⟨⟨position, index⟩, hplace, hserved⟩ := ho
  obtain ⟨hp, hi⟩ := mem_exitPlaces.mp hplace
  obtain ⟨⟨row, slot⟩, hlink, rfl⟩ := Option.map_eq_some_iff.mp hserved
  exact Numbering.groupAt_lt hw hg (ExitTable.View.lookup_of_link? htable hp hi hlink).1

/-- **As many links join two groups as there are slots**, and none joins a group to itself. -/
theorem count_neighbours (numbering : Numbering) (hg : group < p.groups) (ho : other < p.groups) :
    ((ofParts p numbering table m).neighbours group).count other = if group = other then 0 else p.links := by
  have hw := inWords_of_ofLinkMap hcounts htable numbering
  rw [neighbours_ofParts hcounts htable numbering hg]
  split
  · next heq =>
    subst heq
    rw [List.count_eq_zero, List.mem_filterMap]
    rintro ⟨⟨position, index⟩, hplace, hself⟩
    obtain ⟨hp, hi⟩ := mem_exitPlaces.mp hplace
    obtain ⟨⟨row, slot⟩, hlink, hself⟩ := Option.map_eq_some_iff.mp hself
    exact Numbering.groupAt_ne hw hg (ExitTable.View.lookup_of_link? htable hp hi hlink).1 hself
  · next hne =>
    have hslots := Numbering.rowOf_lt hw hg ho hne
    rw [← List.length_range (n := p.links), ← (LinkMap.slotsOf_perm htable hslots).length_eq, List.count_filterMap,
      LinkMap.slotsOf, List.length_filterMap_eq_countP]
    refine List.countP_congr fun place hplace => ?_
    obtain ⟨hp, hi⟩ := mem_exitPlaces.mp (show (place.1, place.2) ∈ _ from hplace)
    cases hlink : m.link? p place.1 place.2 with
    | none => simp
    | some served =>
      have hrow := (ExitTable.View.lookup_of_link? htable hp hi hlink).1
      have hiff : numbering.groupAt group served.1 p.groups = other ↔
          served.1 = numbering.rowOf group other p.groups := by
        constructor
        · rintro rfl
          exact (Numbering.rowOf_groupAt hw hg hrow).symm
        · rintro heq
          rw [heq, Numbering.groupAt_rowOf hw hg ho hne]
      simp [hiff]

/-! ### Ways -/

theorem described_wiring (numbering : Numbering) : (ofParts p numbering table m).wiring.Described := by
  intro router port hr hport
  have hw := inWords_of_ofLinkMap hcounts htable numbering
  have hrouters := hcounts.routers_pos
  refine ⟨(ofParts p numbering table m).link router port, if_neg (Nat.ne_of_gt hrouters), fun next nextPort hpeer => ?_⟩
  have hg : p.groupOf router < p.groups := Parameters.groupOf_lt hr
  have hp : p.positionOf router < p.routers := Parameters.positionOf_lt hrouters router
  show next < p.routerCount
  rw [← p.routerAt_groupOf_positionOf router] at hpeer
  cases hclass : p.classOf? port with
  | none => exact absurd hclass (Parameters.classOf?_ne_none hport)
  | some kind =>
    cases kind with
    | host =>
      rw [link_host (f := ofParts p numbering table m) (Parameters.classOf?_host_iff.mp hclass)] at hpeer
      cases hpeer
    | sibling =>
      rw [link_sibling (f := ofParts p numbering table m) hclass] at hpeer
      cases hpeer
      refine Parameters.routerAt_lt ?_ (Parameters.siblingBehind_lt hclass ?_)
      · rwa [ofParts_parameters, Parameters.groupOf_routerAt hp]
      · rwa [ofParts_parameters, Parameters.positionOf_routerAt hp]
    | exit =>
      obtain ⟨hfirst, hend⟩ := (Parameters.classOf?_exit_iff hcounts.hosts_pos hrouters).mp hclass
      rw [Parameters.portEnd] at hend
      obtain ⟨index, rfl⟩ : ∃ index, port = p.exitPort index := ⟨_, (Nat.add_sub_of_le hfirst).symm⟩
      have hi : index < p.exits := Nat.lt_of_add_lt_add_left hend
      cases hlink : m.link? p (p.positionOf router) index with
      | none =>
        rw [link_ofParts_of_none numbering table _ hp hi hclass hlink] at hpeer
        cases hpeer
      | some served =>
        obtain ⟨e, he, hleads⟩ := link_across hcounts htable numbering hg hp hi hlink
        rw [hleads] at hpeer
        cases hpeer
        exact Parameters.routerAt_lt
          (Numbering.groupAt_lt hw hg (ExitTable.View.lookup_of_link? htable hp hi hlink).1) he

omit htable in
theorem wire_of_link (numbering : Numbering) {next nextPort kind : Nat}
    (hlink : (ofParts p numbering table m).link router port = ⟨.router next nextPort, kind⟩) :
    (ofParts p numbering table m).wiring.Wire none router next 1 := by
  refine ⟨port, nextPort, kind, ?_, ?_, rfl⟩
  · exact lt_radix_of_router (f := ofParts p numbering table m) hcounts.routers_pos (congrArg Link.peer hlink)
  · exact (if_neg (Nat.ne_of_gt hcounts.routers_pos)).trans (congrArg some hlink)

omit htable in
/-- Inside a group it takes one more wire at most. -/
theorem exists_way_within (numbering : Numbering) {origin cost position' : Nat} (hp : position < p.routers)
    (hp' : position' < p.routers)
    (hway : (ofParts p numbering table m).wiring.Way none origin (p.routerAt group position) cost) :
    ∃ cost' ≤ cost + 1, (ofParts p numbering table m).wiring.Way none origin (p.routerAt group position') cost' := by
  by_cases heq : position = position'
  · subst heq
    exact ⟨cost, Nat.le_succ cost, hway⟩
  · exact ⟨cost + 1, Nat.le_refl _,
      .on hway (wire_of_link hcounts numbering (link_portToSibling (ofParts p numbering table m) group heq hp hp'))⟩

/-- **From every router any other is reached by three wires at most**: a link of its group, a global one, and a link
of the other group. In the same group one is enough. -/
theorem exists_way (numbering : Numbering) {origin : Nat} (ho : origin < p.routerCount) (hr : router < p.routerCount) :
    ∃ cost ≤ if p.groupOf origin = p.groupOf router then 1 else 3,
      (ofParts p numbering table m).wiring.Way none origin router cost := by
  have hw := inWords_of_ofLinkMap hcounts htable numbering
  have hrouters := hcounts.routers_pos
  have hpo : p.positionOf origin < p.routers := Parameters.positionOf_lt hrouters origin
  have hpr : p.positionOf router < p.routers := Parameters.positionOf_lt hrouters router
  have hgo : p.groupOf origin < p.groups := Parameters.groupOf_lt ho
  have hgr : p.groupOf router < p.groups := Parameters.groupOf_lt hr
  have hstart : (ofParts p numbering table m).wiring.Way none origin
      (p.routerAt (p.groupOf origin) (p.positionOf origin)) 0 := by
    rw [p.routerAt_groupOf_positionOf]
    exact .start
  rw [← p.routerAt_groupOf_positionOf router]
  rw [Parameters.groupOf_routerAt hpr]
  split
  · next hsame =>
    rw [← hsame]
    exact exists_way_within hcounts numbering hpo hpr hstart
  · next hne =>
    obtain ⟨position, index, hp, hi, hlink, -⟩ :=
      ExitTable.View.lookup_of_ofLinkMap htable (Numbering.rowOf_lt hw hgo hgr hne) hcounts.links_pos
    obtain ⟨e, he, hleads⟩ := link_across hcounts htable numbering hgo hp hi hlink
    rw [Numbering.groupAt_rowOf hw hgo hgr hne] at hleads
    obtain ⟨cost, hcost, hway⟩ := exists_way_within hcounts numbering hpo hp hstart
    obtain ⟨cost', hcost', hway'⟩ :=
      exists_way_within hcounts numbering he hpr (.on hway (wire_of_link hcounts numbering hleads))
    exact ⟨cost', by omega, hway'⟩

theorem exists_diameter_le (numbering : Numbering) (hroom : Storage.holds (p.routerCount * p.routerCount) 8) :
    ∃ d, (ofParts p numbering table m).wiring.diameter = .ok d ∧ d ≤ if p.groups = 1 then 1 else 3 := by
  refine Wiring.diameter_le (described_wiring hcounts htable numbering) hroom _ fun origin router ho hr => ?_
  change origin < p.routerCount at ho
  change router < p.routerCount at hr
  obtain ⟨cost, hcost, hway⟩ := exists_way hcounts htable numbering ho hr
  refine ⟨cost, Nat.le_trans hcost ?_, hway⟩
  have hgo := Parameters.groupOf_lt ho
  have hgr := Parameters.groupOf_lt hr
  split <;> split <;> omega

end Groups

end Fabric

end DragonflyFabric
