import DragonflyFabric.Proofs.Router.Gates
import DragonflyFabric.Proofs.Widths

/-!
# The way out of a group

Every router of a group can be asked for the port toward another group, its own or that of any position of the
group. They agree, because the answer looks at nothing of the router that is asked but its group
(`Sited.portToGroup_some`). So the ports lead every packet of the group to the one router that has the exit,
and from there out of the group.

`Fabric.wayTo` follows the ports on the wires. The step from a gate is `Ahead.wayTo_of_isGate`, the step to it
`Ahead.wayTo_of_not_isGate`.
-/

namespace DragonflyFabric

/-- The wires that are crossed on the way from a router to a group, by the port that each router on the way gives.
The last one leads to a router of the group, or to no router, unless the limit comes first. -/
def Fabric.wayTo (f : Fabric) (toward : Nat → Except Fault Nat) (group : Nat) :
    Nat → Nat → Except Fault (List Link)
  | 0, _ => .ok []
  | limit + 1, index =>
    if f.parameters.groupOf index = group then .ok [] else do
      let port ← toward index
      match (f.link index port).peer with
      | .router next _ => return f.link index port :: (← f.wayTo toward group limit next)
      | _ => return [f.link index port]

namespace Fabric

variable {f : Fabric} {toward : Nat → Except Fault Nat} {group limit index port next nextPort kind : Nat}

theorem wayTo_of_groupOf_eq (h : f.parameters.groupOf index = group) : f.wayTo toward group limit index = .ok [] := by
  cases limit with
  | zero => rfl
  | succ limit => rw [wayTo, if_pos h]

theorem wayTo_succ (hne : f.parameters.groupOf index ≠ group) (hport : toward index = .ok port)
    (hlink : f.link index port = ⟨.router next nextPort, kind⟩) :
    f.wayTo toward group (limit + 1) index =
      (f.wayTo toward group limit next).map (⟨.router next nextPort, kind⟩ :: ·) := by
  rw [wayTo, if_neg hne, hport]
  dsimp only [bind, Except.bind]
  rw [hlink]
  dsimp only
  cases f.wayTo toward group limit next <;> rfl

end Fabric

/-! ### Agreement -/

/-- What a router knows of the network once it was installed at a place. -/
def Installation.Sited (n : Installation) (index : Nat) (s : Site) : Prop :=
  ∃ ports channels fresh, Router.install n.settings n.table index ports channels = .ok fresh ∧ s = fresh.site

namespace Installation.Sited

variable {n : Installation} {index asked group slot : Nat} {s t : Site}

theorem exists_inService (h : n.Sited index s) : ∃ r : Router, r.InService n index ∧ s = r.site := by
  obtain ⟨_, _, fresh, hfresh, hsite⟩ := h
  exact ⟨fresh, .install hfresh, hsite⟩

/-- **A router answers for another one of its group as that one answers for itself.** -/
theorem portToGroup_some (hs : n.Sited asked s) (ht : n.Sited index t)
    (hgroup : n.parameters.groupOf asked = n.parameters.groupOf index) (group slot : Nat) :
    s.portToGroup group slot (some (n.parameters.positionOf index)) = t.portToGroup group slot none := by
  obtain ⟨r, hr, rfl⟩ := hs.exists_inService
  obtain ⟨other, ho, rfl⟩ := ht.exists_inService
  rw [Site.portToGroup, Site.portToGroup, hr.group_eq, ho.group_eq, hr.parameters_eq, ho.parameters_eq,
    hr.numbering_eq, ho.numbering_eq, hr.table_eq, ho.table_eq, ho.position_eq, hgroup, Option.getD_some,
    Option.getD_none]

theorem portToGroup_none (hs : n.Sited index s) (h : n.Ahead index group slot) :
    s.portToGroup group slot none = .ok (n.portToward index group slot) := by
  obtain ⟨r, hr, rfl⟩ := hs.exists_inService
  exact h.portToGroup_eq hr

end Installation.Sited

/-! ### The wires -/

/-- The port of a router toward an exit, by the place that has the exit in the group. -/
def Parameters.portToPlace (p : Parameters) (owner index position : Nat) : Nat :=
  if position = owner then p.exitPort index else p.portToSibling position owner

/-- The wire inside a group from a position to the one that has the exit, if these are two. -/
def Parameters.wireToPlace (p : Parameters) (group owner position : Nat) : List Link :=
  if position = owner then []
  else [⟨.router (p.routerAt group owner) (p.portToSibling owner position), Link.localKind⟩]

namespace Installation

variable {n : Installation} {index group slot limit : Nat} {toward : Nat → Except Fault Nat}

/-- The wire out of a group toward another one. -/
def wireOut (n : Installation) (group other slot : Nat) : Link :=
  ⟨.router (n.gate other group slot) (n.exitTo other group slot).port.toNat, Link.globalKind⟩

namespace Ahead

variable (h : n.Ahead index group slot)
  (htoward : ∀ {index}, n.Ahead index group slot → toward index = .ok (n.portToward index group slot))

include h

theorem fabric_ne : n.fabric.parameters.groupOf index ≠ group := by
  rw [fabric_parameters]
  exact h.ne

/-- The port toward a group, by the place of the exit. -/
theorem portToward_eq {owner exit : Nat}
    (hrouter : (n.exitTo (n.parameters.groupOf index) group slot).router.toNat = owner)
    (hport : (n.exitTo (n.parameters.groupOf index) group slot).port.toNat = n.parameters.exitPort exit) :
    n.portToward index group slot = n.parameters.portToPlace owner exit (n.parameters.positionOf index) := by
  rw [portToward, Parameters.portToPlace, ← hrouter, ← hport]
  exact if_congr (h.isGate_iff.trans eq_comm) rfl rfl

include htoward

theorem wayTo_of_isGate (hgate : n.isGate index group slot = true) :
    n.fabric.wayTo toward group (limit + 1) index = .ok [n.wireOut (n.parameters.groupOf index) group slot] := by
  have hlink := (h.link_of_isGate hgate).1
  have hport := htoward h
  rw [portToward, if_pos hgate] at hport
  rw [Fabric.wayTo_succ h.fabric_ne hport hlink, Fabric.wayTo_of_groupOf_eq]
  · rfl
  · rw [fabric_parameters]
    exact n.groupOf_gate h.group_lt h.here_lt h.ne.symm h.slot_lt

theorem wayTo_of_not_isGate (hgate : n.isGate index group slot = false) :
    n.fabric.wayTo toward group (limit + 2) index =
      .ok [⟨.router (n.gate (n.parameters.groupOf index) group slot)
          (n.parameters.portToSibling (n.exitTo (n.parameters.groupOf index) group slot).router.toNat
            (n.parameters.positionOf index)), Link.localKind⟩,
        n.wireOut (n.parameters.groupOf index) group slot] := by
  have hnot : ¬n.isGate index group slot = true := by
    rw [hgate]
    exact Bool.false_ne_true
  have hlink := n.link_portToSibling (fun heq => hnot (h.isGate_iff.mpr heq.symm)) h.serves.router_lt
  have hport := htoward h
  rw [portToward, if_neg hnot] at hport
  obtain ⟨hnext, hnextGate⟩ := h.next hgate
  have hgroup := h.groupOf_nextToward
  rw [if_neg hnot] at hgroup
  rw [nextToward, if_neg hnot] at hnext hnextGate hgroup
  rw [Fabric.wayTo_succ h.fabric_ne hport hlink, ← gate, hnext.wayTo_of_isGate htoward hnextGate, hgroup]
  rfl

/-- Two wires at most lead to a group: one to the router that has the exit, and one from there. -/
theorem wayTo_eq {owner : Nat} (hrouter : (n.exitTo (n.parameters.groupOf index) group slot).router.toNat = owner) :
    n.fabric.wayTo toward group (limit + 2) index =
      .ok (n.parameters.wireToPlace (n.parameters.groupOf index) owner (n.parameters.positionOf index) ++
        [n.wireOut (n.parameters.groupOf index) group slot]) := by
  have hgate := h.isGate_iff
  rw [hrouter] at hgate
  rw [Parameters.wireToPlace]
  by_cases heq : n.parameters.positionOf index = owner
  · rw [if_pos heq, h.wayTo_of_isGate htoward (hgate.mpr heq.symm), List.nil_append]
  · rw [if_neg heq, h.wayTo_of_not_isGate htoward (Bool.not_eq_true _ ▸ mt hgate.mp (Ne.symm heq)), gate, hrouter]
    rfl

end Ahead

/-- **The routers of a group agree on the way out.** For every other group and parallel link there is one position
that has the exit. Whichever router of the group is asked, the port that it gives for a position is the one that
the router there takes: the exit, or the port to the sibling that has it. On these ports one wire inside the group
is crossed at most, then the one to the place that the exit of the other group names. -/
theorem way_out_agreed (n : Installation) (_hcount : n.parameters.Countable) {site : Nat → Site}
    {group other slot : Nat} (hsite : ∀ index < n.parameters.routerCount, n.Sited index (site index))
    (hg : group < n.parameters.groups) (ho : other < n.parameters.groups) (hne : group ≠ other)
    (hs : slot < n.parameters.links) :
    ∃ owner exit back,
      n.settings.linkMap.ServedAt n.parameters (n.numbering.rowOf group other n.parameters.groups) slot owner exit ∧
      n.table.lookup (n.numbering.rowOf other group n.parameters.groups) slot = .ok back ∧
      back.router.toNat < n.parameters.routers ∧
      ∀ position < n.parameters.routers,
        (∀ asked < n.parameters.routers,
          (site (n.parameters.routerAt group asked)).portToGroup other slot (some position) =
            .ok (n.parameters.portToPlace owner exit position)) ∧
        (site (n.parameters.routerAt group position)).portToGroup other slot none =
          .ok (n.parameters.portToPlace owner exit position) ∧
        ∀ limit, n.fabric.wayTo (fun index => (site index).portToGroup other slot none) other (limit + 2)
            (n.parameters.routerAt group position) =
          .ok (n.parameters.wireToPlace group owner position ++
            [⟨.router (n.parameters.routerAt other back.router.toNat) back.port.toNat, Link.globalKind⟩]) := by
  have hrow := Numbering.rowOf_lt n.inWords hg ho hne
  obtain ⟨owner, exit, e, hserved, hlookup, hrouter, hport⟩ := n.lookup_place hrow hs
  have hback := n.serves_exitTo ho hg hne.symm hs
  obtain rfl : n.exitTo group other slot = e :=
    Except.ok.inj ((n.serves_exitTo hg ho hne hs).lookup_eq.symm.trans hlookup)
  refine ⟨owner, exit, n.exitTo other group slot, hserved, hback.lookup_eq, hback.router_lt, fun position hp => ?_⟩
  have hgroup : n.parameters.groupOf (n.parameters.routerAt group position) = group :=
    Parameters.groupOf_routerAt hp
  have hposition : n.parameters.positionOf (n.parameters.routerAt group position) = position :=
    Parameters.positionOf_routerAt hp
  have h : n.Ahead (n.parameters.routerAt group position) other slot :=
    ⟨Parameters.routerAt_lt hg hp, ho, by rwa [hgroup], hs⟩
  have hown := (hsite _ h.index_lt).portToGroup_none h
  rw [h.portToward_eq (by rw [hgroup, hrouter]) (by rw [hgroup, hport]), hposition] at hown
  refine ⟨fun asked ha => ?_, hown, fun limit => ?_⟩
  · have hsame := (hsite _ (Parameters.routerAt_lt hg ha)).portToGroup_some (hsite _ h.index_lt)
      ((Parameters.groupOf_routerAt ha).trans hgroup.symm) other slot
    rw [hposition] at hsame
    exact hsame.trans hown
  · rw [h.wayTo_eq (fun h => (hsite _ h.index_lt).portToGroup_none h) (by rw [hgroup, hrouter]), hgroup, hposition]
    rfl

/-- Router 5 is the second one of the last group. It gives the port to its sibling, router 4, and there the exit
leads to the second router of the first group. -/
theorem way_out_agreed_sample :
    sample.parameters.Countable ∧
    (∀ index < sample.parameters.routerCount, sample.Sited index (sample.newRouter index 8).site) ∧
    (sample.newRouter 4 8).site.portToGroup 0 0 (some 1) = .ok 1 ∧
    (sample.newRouter 5 8).site.portToGroup 0 0 none = .ok 1 ∧
    sample.fabric.wayTo (fun index => (sample.newRouter index 8).site.portToGroup 0 0 none) 0 2 5 =
      .ok [⟨.router 4 1, Link.localKind⟩, ⟨.router 1 2, Link.globalKind⟩] := by
  have hsite : ∀ index < sample.parameters.routerCount, sample.Sited index (sample.newRouter index 8).site :=
    fun _ hi => ⟨_, _, _, Router.install_eq sample hi (by decide), rfl⟩
  have hcount : sample.parameters.Countable := ⟨⟨by decide, by decide, by decide⟩, by decide⟩
  obtain ⟨owner, exit, back, hserved, hback, -, hways⟩ :=
    way_out_agreed sample hcount hsite (show 2 < sample.parameters.groups by decide)
      (show 0 < sample.parameters.groups by decide) (by decide) (show 0 < sample.parameters.links by decide)
  obtain ⟨rfl, rfl⟩ := hserved.only 0 0 (by decide) (by decide) rfl
  obtain rfl : ⟨1, 2⟩ = back := Except.ok.inj hback
  obtain ⟨hasked, hown, hway⟩ := hways 1 (by decide)
  exact ⟨hcount, hsite, hasked 0 (by decide), hown, hway 0⟩

end Installation

end DragonflyFabric
