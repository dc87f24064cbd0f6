import DragonflyFabric.Proofs.Journey.Dependencies

/-!
# Circles of waiting adaptive packets

Adaptive packets decide again at each router of the group they start in. So a packet may go to the gate of the
straight way and from there, in the same channel, to the gate of its other way, and packets that do so may wait
for each other in a circle: `circle_of_adaptive`.

* `Depends.of_local`: such pairs of hops are the only dependencies between lanes within groups.
* `circle_within_group`: every circle is one of them: it stays within a group, in the first channel of a class.
-/

namespace DragonflyFabric.Installation

open Relation

variable {n : Installation} {algorithms : Algorithm → Prop} {a b : Lane}

/-! ### Dependencies within a group -/

/-- Where a packet has a way through another group, there is a third one. -/
theorem three_le_groups {c : TrafficClass} {index : Nat} {q : Request} {k : Packet} (hk : k.Entered n c index q)
    (hi : index < n.parameters.routerCount) (hadaptive : c.algorithm = .adaptive)
    (haway : n.parameters.groupOf index ≠ k.dest.group.toNat) (hgroup : k.dest.alternate ≠ k.dest.group) :
    3 ≤ n.parameters.groups := by
  have hsource := Parameters.groupOf_lt hi
  have hdest := hk.routable.group_lt
  cases hk.way with
  | straight _ halternate => exact absurd halternate hgroup
  | around _ hvaliant =>
    rw [hadaptive] at hvaliant
    cases hvaliant
  | either _ _ hlt hne =>
    have hne' : k.dest.alternate.toNat ≠ k.dest.group.toNat := fun heq => hgroup (UInt32.toNat_inj.mp heq)
    omega

/-- **Of two lanes within groups, one depends on the other in the first channel of an adaptive class only**, in
one group of three or more. -/
theorem Depends.of_local (h : n.Depends algorithms a b) (ha : ¬n.isGlobal a) (hb : ¬n.isGlobal b) :
    3 ≤ n.parameters.groups ∧ n.parameters.groupOf b.router = n.parameters.groupOf a.router ∧
      ∃ network c, n.plan.get network = .ok c ∧ c.algorithm = .adaptive ∧ a.channel = c.start ∧
        b.channel = c.start := by
  cases h with
  | @step met q c k limit hop i leg next running source network algorithm entered first second onward further =>
    have hi := Parameters.div_hosts_lt source
    obtain ⟨legs, hmarks, hlegs⟩ := exists_legs running network hi entered hop
    rw [(hlegs limit).1] at first second
    rw [isGlobal_lane_iff onward] at ha
    rw [isGlobal_lane_iff further] at hb
    have honward : (n.fabric.mark next).wire ≠ none := fun hnone => by
      rw [show n.fabric.wire? next = none from hnone] at further
      cases further
    obtain ⟨hadaptive, haway, -, hgroup, hin, hin', hchannel, hchannel'⟩ :=
      hmarks.of_hops_within (Fabric.getElem?_mark first) (Fabric.getElem?_mark second) honward ha hb
    rw [← hin] at hin'
    have hsame : n.parameters.groupOf next.router = n.parameters.groupOf leg.router := by
      rw [← n.fabric_parameters]
      exact hin'
    exact ⟨three_le_groups entered hi hadaptive haway hgroup, hsame, _, c, network, hadaptive, hchannel, hchannel'⟩

/-! ### Circles -/

/-- No lane of a circle is between groups: the rank would have to fall again. -/
theorem not_isGlobal_of_circle (h : TransGen (n.Depends algorithms) a a) : ¬n.isGlobal a :=
  fun hglobal => n.acyclic_dependencies.2 algorithms ⟨a, hglobal, h⟩

/-- All lanes of a circle are in one group and one channel. -/
theorem same_of_circle (h : TransGen (n.Depends algorithms) a b) (hback : TransGen (n.Depends algorithms) b a) :
    n.parameters.groupOf b.router = n.parameters.groupOf a.router ∧ b.channel = a.channel := by
  have hlocal {b : Lane} (h : TransGen (n.Depends algorithms) a b) (hback : TransGen (n.Depends algorithms) b a) :
      ¬n.isGlobal b := not_isGlobal_of_circle (hback.trans h)
  induction h with
  | single hstep =>
    obtain ⟨-, hgroup, _, _, -, -, hchannel, hchannel'⟩ :=
      hstep.of_local (not_isGlobal_of_circle (hback.head hstep)) (hlocal (.single hstep) hback)
    exact ⟨hgroup, hchannel'.trans hchannel.symm⟩
  | tail hpath hstep ih =>
    have hback' := hback.head hstep
    obtain ⟨-, hgroup, _, _, -, -, hchannel, hchannel'⟩ :=
      hstep.of_local (hlocal hpath hback') (hlocal (hpath.tail hstep) hback)
    obtain ⟨hin, hkept⟩ := ih hback'
    exact ⟨hgroup.trans hin, (hchannel'.trans hchannel.symm).trans hkept⟩

/-- **Packets wait in a circle only within a group**, one of three or more. All lanes of the circle are then
in the first channel of one class, which is an adaptive one. -/
theorem circle_within_group (n : Installation) {a : Lane} (h : TransGen (n.Depends algorithms) a a) :
    3 ≤ n.parameters.groups ∧ ∃ network c, n.plan.get network = .ok c ∧ c.algorithm = .adaptive ∧
      ∀ b, TransGen (n.Depends algorithms) a b → TransGen (n.Depends algorithms) b a →
        ¬n.isGlobal b ∧ n.parameters.groupOf b.router = n.parameters.groupOf a.router ∧ b.channel = c.start := by
  obtain ⟨next, hstep, hrest⟩ := TransGen.head'_iff.mp h
  have hnext : ¬n.isGlobal next := not_isGlobal_of_circle (.trans_right hrest (.single hstep))
  obtain ⟨hgroups, -, network, c, hc, hadaptive, hchannel, -⟩ := hstep.of_local (not_isGlobal_of_circle h) hnext
  refine ⟨hgroups, network, c, hc, hadaptive, fun b hpath hback => ?_⟩
  obtain ⟨hgroup, hsame⟩ := same_of_circle hpath hback
  exact ⟨not_isGlobal_of_circle (hback.trans hpath), hgroup, hsame.trans hchannel⟩

/-! ### A circle -/

/-- Lanes to routers that a journey takes one after the other depend on each other. -/
theorem depends_of_lanes {met : Nat → Nat → Router} {c : TrafficClass} {i : Nat} (q : Request) (limit : Nat)
    (lanes : List Lane) (hmet : n.Running met) (hs : q.source < n.parameters.hostCount)
    (hd : q.destination < n.parameters.hostCount) (hc : n.plan.get q.network = .ok c)
    (halgorithm : algorithms c.algorithm)
    (hlanes : ((n.fabric.journey met limit q).map fun j => j.legs.map Leg.lane).toOption = some lanes)
    (hfirst : lanes[i]? = some a) (hsecond : lanes[i + 1]? = some b)
    (honward : ∃ next port, (n.fabric.link a.router a.port).peer = .router next port)
    (hfurther : ∃ next port, (n.fabric.link b.router b.port).peer = .router next port) :
    n.Depends algorithms a b := by
  have hwire {leg : Leg} (h : ∃ next port, (n.fabric.link leg.lane.router leg.lane.port).peer = .router next port) :
      (n.fabric.wire? leg).isSome := by
    obtain ⟨next, port, hpeer⟩ := h
    simp only [Leg.lane] at hpeer
    rw [Fabric.wire?]
    split
    · rfl
    · next hother =>
      exact absurd (congrArg (Link.mk · _) hpeer) (hother _ _ _)
  cases hj : n.fabric.journey met limit q with
  | error why =>
    rw [hj] at hlanes
    cases hlanes
  | ok j =>
    rw [hj] at hlanes
    cases hlanes
    rw [List.getElem?_map, Option.map_eq_some_iff] at hfirst hsecond
    obtain ⟨leg, hleg, rfl⟩ := hfirst
    obtain ⟨next, hnext, rfl⟩ := hsecond
    exact depends_of_journey hmet hs hd hc halgorithm hj hleg hnext (hwire honward) (hwire hfurther)

/-- The routers of the small network, each with two packets queued behind its global port, in the second channel
of the adaptive class. -/
def crowded (_ index : Nat) : Router :=
  (sample.newRouter index sample.plan.total).setQueues ((Array.replicate 22 0).push 2)

theorem running_crowded : sample.Running crowded :=
  fun hop index hi => (sample.running_new hop index hi).setQueues _

/-- A packet from the first router of the first group for the third one gives up the straight way at the second
router, and comes back. -/
theorem depends_there : sample.Depends (fun x => x = .adaptive) ⟨0, 1, 5⟩ ⟨1, 1, 5⟩ :=
  depends_of_lanes ⟨0, 4, 2, 64⟩ 2 [⟨0, 1, 5⟩, ⟨1, 1, 5⟩] (c := ⟨5, 3, .adaptive⟩) (i := 0) running_crowded
    (by decide) (by decide) rfl rfl (by decide +kernel) rfl rfl ⟨1, 1, rfl⟩ ⟨0, 1, rfl⟩

/-- A packet from that router for the second group does so at the first. -/
theorem depends_back : sample.Depends (fun x => x = .adaptive) ⟨1, 1, 5⟩ ⟨0, 1, 5⟩ :=
  depends_of_lanes ⟨1, 2, 2, 64⟩ 2 [⟨1, 1, 5⟩, ⟨0, 1, 5⟩] (c := ⟨5, 3, .adaptive⟩) (i := 0) running_crowded
    (by decide) (by decide) rfl rfl (by decide +kernel) rfl rfl ⟨0, 1, rfl⟩ ⟨1, 1, rfl⟩

/-- **Adaptive packets may wait in a circle**: two lanes within a group depend on each other. -/
theorem circle_of_adaptive : TransGen (sample.Depends fun x => x = .adaptive) ⟨0, 1, 5⟩ ⟨0, 1, 5⟩ :=
  .tail (.single depends_there) depends_back

theorem circle_within_group_sample :
    TransGen (sample.Depends fun x => x = .adaptive) ⟨0, 1, 5⟩ ⟨0, 1, 5⟩ ∧ 3 ≤ sample.parameters.groups ∧
      ∃ network c, sample.plan.get network = .ok c ∧ c.algorithm = .adaptive ∧
        ∀ b, TransGen (sample.Depends fun x => x = .adaptive) ⟨0, 1, 5⟩ b →
          TransGen (sample.Depends fun x => x = .adaptive) b ⟨0, 1, 5⟩ →
            ¬sample.isGlobal b ∧ sample.parameters.groupOf b.router = 0 ∧ b.channel = c.start :=
  have h : TransGen (sample.Depends fun x => x = .adaptive) ⟨0, 1, 5⟩ ⟨0, 1, 5⟩ :=
    .tail (.single depends_there) depends_back
  ⟨h, sample.circle_within_group h⟩

end DragonflyFabric.Installation
