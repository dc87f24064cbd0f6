import DragonflyFabric.Proofs.Journey.Itinerary

/-!
# Packets are delivered

For each algorithm, what every journey of its packets is like: `minimal_delivers`, `valiant_delivers` and
`adaptive_delivers`. The routers are met in any states in which they are in service, so that the statements
hold however other packets pass them at the same time.
-/

namespace DragonflyFabric

namespace Installation

variable {n : Installation} {met : Nat → Nat → Router} {c : TrafficClass} {q : Request} {k : Packet}
  {limit : Nat}

/-- The router of the destination, in its group. -/
theorem toNat_router (hk : k.Entered n c (n.home q.source) q) (hrouters : n.parameters.routers ≤ 2 ^ 32) :
    k.dest.router.toNat = n.parameters.positionOf (n.home q.destination) := by
  have hposition := Parameters.positionOf_lt n.checked.routers_pos (n.home q.destination)
  rw [hk.router_eq, UInt32.toNat_ofNat_of_lt' (lt_of_lt_of_le hposition hrouters)]

theorem mark_group (n : Installation) (leg : Leg) :
    (n.fabric.mark leg).group = n.parameters.groupOf leg.router := by
  rw [Fabric.mark, fabric_parameters]

/-- **Minimal routing delivers every packet by a short path.** -/
theorem minimal_delivers (hmet : n.Running met) (hhosts : n.parameters.hosts ≤ 2 ^ 32)
    (hrouters : n.parameters.routers ≤ 2 ^ 32) (hs : q.source < n.parameters.hostCount)
    (hd : q.destination < n.parameters.hostCount) (hc : n.plan.get q.network = .ok c)
    (hminimal : c.algorithm = .minimal) (hlimit : 4 ≤ limit) :
    ∃ j, n.fabric.journey met limit q = .ok j ∧ j.ending = .delivered q.destination ∧
      (n.home q.source = n.home q.destination → n.fabric.wires j.legs = []) ∧
      (n.home q.source ≠ n.home q.destination → n.homeGroup q.source = n.homeGroup q.destination →
        n.fabric.wires j.legs = [Link.localKind]) ∧
      (n.homeGroup q.source ≠ n.homeGroup q.destination →
        (n.fabric.wires j.legs).length ≤ 3 ∧ (n.fabric.wires j.legs).count Link.globalKind = 1) ∧
      (∀ leg ∈ j.legs, leg.egress.label = 0) ∧ n.fabric.Climbs c j.legs := by
  obtain ⟨k, legs, hk, hmarks, hclimbs, hjourney⟩ := exists_delivery hmet hhosts hrouters hs hd hc
  have hgroup : k.dest.group.toNat = n.homeGroup q.destination := hk.group_eq
  have hrouter := toNat_router hk hrouters
  have hlength := hmarks.length_le_of_minimal hminimal
  refine ⟨_, hjourney limit (Nat.le_trans hlength hlimit), rfl, ?_, ?_, ?_, ?_, hclimbs⟩
  · intro hsame
    rw [n.fabric.wires_eq, hmarks.eq_arrival ((congrArg _ hsame).trans hgroup.symm), Mark.wires_arrival, hrouter, hsame,
      decide_eq_false (not_not_intro rfl)]
    rfl
  · intro hother hhere
    -- Different routers of a group are at different positions.
    have hposition : n.parameters.positionOf (n.home q.source) ≠ n.parameters.positionOf (n.home q.destination) := by
      intro heq
      apply hother
      calc n.home q.source
          = n.parameters.routerAt (n.homeGroup q.source) (n.parameters.positionOf (n.home q.source)) :=
            (n.parameters.routerAt_groupOf_positionOf _).symm
        _ = n.parameters.routerAt (n.homeGroup q.destination) (n.parameters.positionOf (n.home q.destination)) :=
            congrArg₂ n.parameters.routerAt hhere heq
        _ = n.home q.destination := n.parameters.routerAt_groupOf_positionOf _
    rw [n.fabric.wires_eq, hmarks.eq_arrival (hhere.trans hgroup.symm), Mark.wires_arrival, hrouter,
      decide_eq_true hposition]
    rfl
  · intro haway
    rw [← hgroup] at haway
    obtain ⟨aside, aside', hdirect⟩ := hmarks.exists_direct hminimal haway
    rw [n.fabric.wires_eq, hdirect]
    exact ⟨Mark.length_wires_direct_le _ _ _ _ _, Mark.count_direct _ _ _ _ _⟩
  · intro leg hleg
    exact hmarks.label_eq_zero hminimal (List.mem_map_of_mem hleg)

theorem minimal_delivers_sample :
    ∃ j, sample.fabric.journey (fun _ index => sample.newRouter index sample.plan.total) 4 ⟨0, 5, 0, 64⟩ = .ok j ∧
      j.ending = .delivered 5 ∧ (sample.fabric.wires j.legs).count Link.globalKind = 1 := by
  obtain ⟨j, hj, hending, -, -, hwires, -⟩ := minimal_delivers (q := ⟨0, 5, 0, 64⟩) (c := ⟨0, 2, .minimal⟩)
    sample.running_new (by decide) (by decide) (by decide) (by decide) rfl rfl (Nat.le_refl 4)
  exact ⟨j, hj, hending, (hwires (by decide)).2⟩

/-- **Valiant routing delivers every packet through its intermediate group.** -/
theorem valiant_delivers (hmet : n.Running met) (hgroups : 3 ≤ n.parameters.groups)
    (hs : q.source < n.parameters.hostCount) (hd : q.destination < n.parameters.hostCount)
    (hc : n.plan.get q.network = .ok c) (hvaliant : c.algorithm = .valiant)
    (haway : n.homeGroup q.source ≠ n.homeGroup q.destination) (hlimit : 6 ≤ limit) :
    ∃ j through, n.fabric.journey met limit q = .ok j ∧ j.ending = .delivered q.destination ∧
      j.packet.dest.target.toNat = through ∧
      through ≠ n.homeGroup q.source ∧ through ≠ n.homeGroup q.destination ∧
      n.fabric.visited j.legs = [n.homeGroup q.source, through, n.homeGroup q.destination] ∧
      (n.fabric.wires j.legs).count Link.globalKind = 2 ∧ (n.fabric.wires j.legs).length ≤ 5 ∧
      n.fabric.Climbs c j.legs ∧
      ∀ leg ∈ j.legs,
        (n.parameters.groupOf leg.router = n.homeGroup q.source →
          leg.before.dest.target.toNat = through ∧ leg.after.dest.target.toNat = through) ∧
        (n.parameters.groupOf leg.router ≠ n.homeGroup q.source →
          leg.after.dest.target.toNat = n.homeGroup q.destination) ∧
        leg.egress.label = if n.parameters.groupOf leg.router = n.homeGroup q.destination then 0 else 1 := by
  obtain ⟨hhosts, hrouters⟩ := n.counts_le (by omega)
  obtain ⟨k, legs, hk, hmarks, hclimbs, hjourney⟩ := exists_delivery hmet hhosts hrouters hs hd hc
  have hgroup : k.dest.group.toNat = n.homeGroup q.destination := hk.group_eq
  rw [← hgroup] at haway
  obtain ⟨htarget, hsource, hthrough, aside, aside', aside'', hdetour⟩ :=
    hmarks.exists_detour hvaliant hgroups haway
  have hlength := Mark.length_detour_le (n.homeGroup q.source) k.dest.alternate.toNat k.dest.group.toNat c.start
    k.dest.alternate.toNat aside aside' aside''
  rw [← hgroup]
  refine ⟨_, k.dest.alternate.toNat, hjourney limit (by rw [hdetour]; exact Nat.le_trans hlength hlimit), rfl,
    congrArg _ htarget, hsource, hthrough, ?_, ?_, ?_, hclimbs, ?_⟩
  · rw [n.fabric.visited_eq, hdetour]
    exact Mark.visited_detour hsource.symm hthrough _ _ false aside aside' aside''
  · rw [n.fabric.wires_eq, hdetour]
    exact Mark.count_detour _ _ _ _ _ _ _ _
  · rw [n.fabric.wires_eq, hdetour]
    exact Mark.length_wires_detour_le _ _ _ _ _ _ _ _
  · intro leg hleg
    have hmark : n.fabric.mark leg ∈ legs.map n.fabric.mark := List.mem_map_of_mem hleg
    rw [hdetour] at hmark
    rw [← n.mark_group]
    rcases Mark.of_mem_detour hmark with
      ⟨hhere, hlabel, hleft, hcame⟩ | ⟨hhere, hlabel, hleft⟩ | ⟨hhere, hlabel, hleft⟩
    · rw [hhere, if_neg haway]
      exact ⟨fun _ => ⟨hcame.elim id id, hleft⟩, fun hne => absurd rfl hne, hlabel⟩
    · rw [hhere, if_neg hthrough]
      exact ⟨fun heq => absurd heq hsource, fun _ => hleft, hlabel⟩
    · rw [hhere, if_pos rfl]
      exact ⟨fun heq => absurd heq.symm haway, fun _ => hleft, hlabel⟩

theorem valiant_delivers_sample :
    ∃ j, sample.fabric.journey (fun _ index => sample.newRouter index sample.plan.total) 6 ⟨0, 5, 1, 64⟩ = .ok j ∧
      j.ending = .delivered 5 ∧ (sample.fabric.wires j.legs).count Link.globalKind = 2 := by
  obtain ⟨j, _, hj, hending, -, -, -, -, hwires, -⟩ := valiant_delivers (q := ⟨0, 5, 1, 64⟩) (c := ⟨2, 3, .valiant⟩)
    sample.running_new (by decide) (by decide) (by decide) rfl rfl (by decide) (Nat.le_refl 6)
  exact ⟨j, hj, hending, hwires⟩

/-- **Adaptive routing delivers every packet**, whatever the congestion at each hop. It turns to the other way
at most once, in its source group. -/
theorem adaptive_delivers (hmet : n.Running met) (hhosts : n.parameters.hosts ≤ 2 ^ 32)
    (hrouters : n.parameters.routers ≤ 2 ^ 32) (hs : q.source < n.parameters.hostCount)
    (hd : q.destination < n.parameters.hostCount) (hc : n.plan.get q.network = .ok c)
    (hadaptive : c.algorithm = .adaptive) (hlimit : 7 ≤ limit) :
    ∃ j, n.fabric.journey met limit q = .ok j ∧ j.ending = .delivered q.destination ∧
      (n.fabric.wires j.legs).length ≤ 6 ∧ (n.fabric.wires j.legs).count Link.globalKind ≤ 2 ∧
      (n.fabric.wiresOf (n.homeGroup q.source) j.legs).count Link.localKind ≤ 2 ∧
      j.legs.countP (Leg.turnsFrom (n.homeGroup q.destination)) ≤ 1 ∧
      (∀ leg ∈ j.legs, leg.turnsFrom (n.homeGroup q.destination) →
        n.parameters.groupOf leg.router = n.homeGroup q.source ∧
        leg.after.dest.target = j.packet.dest.alternate ∧
        n.fabric.visited j.legs =
          [n.homeGroup q.source, j.packet.dest.alternate.toNat, n.homeGroup q.destination]) ∧
      n.fabric.Climbs c j.legs := by
  obtain ⟨k, legs, hk, hmarks, hclimbs, hjourney⟩ := exists_delivery hmet hhosts hrouters hs hd hc
  have hgroup : k.dest.group.toNat = n.homeGroup q.destination := hk.group_eq
  refine ⟨_, hjourney limit (Nat.le_trans hmarks.length_le hlimit), rfl, ?_, ?_, ?_, ?_, ?_, hclimbs⟩
  · rw [n.fabric.wires_eq]
    exact hmarks.length_wires_le
  · have hcount := hmarks.count_lt
    rw [hadaptive] at hcount
    rw [n.fabric.wires_eq]
    exact Nat.le_of_lt_succ hcount
  · rw [n.fabric.wiresOf_eq]
    exact hmarks.local_le
  · rw [n.fabric.countP_turnsFrom_eq, ← hgroup]
    exact hmarks.countP_turnsFrom_le
  · intro leg hleg hturns
    rw [← hgroup] at hturns ⊢
    obtain ⟨hhere, hleft, hvisited⟩ := hmarks.of_turnsFrom (List.mem_map_of_mem hleg) hturns
    rw [n.mark_group] at hhere
    rw [n.fabric.visited_eq]
    exact ⟨hhere, UInt32.toNat_inj.mp hleft, hvisited⟩

theorem adaptive_delivers_sample :
    ∃ j, sample.fabric.journey (fun _ index => sample.newRouter index sample.plan.total) 7 ⟨0, 5, 2, 64⟩ = .ok j ∧
      j.ending = .delivered 5 ∧ (sample.fabric.wires j.legs).count Link.globalKind ≤ 2 := by
  obtain ⟨j, hj, hending, -, hwires, -⟩ := adaptive_delivers (q := ⟨0, 5, 2, 64⟩) (c := ⟨5, 3, .adaptive⟩)
    sample.running_new (by decide) (by decide) (by decide) (by decide) rfl rfl (Nat.le_refl 7)
  exact ⟨j, hj, hending, hwires⟩

end Installation

end DragonflyFabric
