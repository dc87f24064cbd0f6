import DragonflyFabric.Network
import DragonflyFabric.Proofs.Router.Entry

/-!
# Journeys

A journey is a packet followed through the network. Other packets pass the same routers, so the router that
is met at each hop may be in another state than the last time; `met hop index` is the state in which the
router `index` is met at that hop. Nothing is assumed of these states but that they are in service.

* `Fabric.follow` follows a packet from a router, `Fabric.journey` one that enters at the router of its
  source.
* `Fabric.Delivers` is a journey that comes to a host, leg by leg; `follow_of_delivers` says that following
  the packet gives just these legs.
-/

namespace DragonflyFabric

/-- One hop: the router, the packet as it came there, how it left, and the packet as it left. -/
structure Leg where
  router : Nat
  before : Packet
  egress : Egress
  after : Packet

/-- A packet that came heading for a group turns away from it here. -/
def Leg.turnsFrom (group : Nat) (l : Leg) : Bool :=
  l.before.dest.target.toNat = group && l.after.dest.target.toNat ≠ group

/-- A packet as it entered, followed to where it ends. -/
structure Journey where
  packet : Packet
  legs : List Leg
  ending : WalkEnd

/-- The router of a host. -/
abbrev Installation.home (n : Installation) (host : Nat) : Nat := host / n.parameters.hosts

/-- The group of a host. -/
abbrev Installation.homeGroup (n : Installation) (host : Nat) : Nat := n.parameters.groupOf (n.home host)

/-- Whenever a router of the network is met, it is in service. -/
def Installation.Running (n : Installation) (met : Nat → Nat → Router) : Prop :=
  ∀ hop index, index < n.parameters.routerCount → (met hop index).InService n index

/-- A network of routers that were just installed is running. -/
theorem Installation.running_new (n : Installation) :
    n.Running fun _ index => n.newRouter index n.plan.total :=
  fun _ _ hi => .install (Router.install_eq n hi (Nat.le_refl _))

namespace Fabric

variable (f : Fabric) (met : Nat → Nat → Router)

/-- Follows a packet from a router, for a number of hops at most. -/
def follow : Nat → Nat → Nat → Packet → List Leg × WalkEnd
  | 0, _, _, _ => ([], .limit)
  | limit + 1, hop, index, k =>
    match (Transit.forwardSeen k.channel).run ⟨met hop index, k⟩ with
    | (.error why, _) => ([], .failed why)
    | (.ok egress, t) =>
      let leg : Leg := ⟨index, k, egress, t.packet⟩
      match (f.link index egress.port).peer with
      | .server server => ([leg], .delivered server)
      | .nothing => ([leg], .unconnected)
      | .router next _ =>
        let (legs, ending) := follow limit (hop + 1) next t.packet
        (leg :: legs, ending)

/-- Lets a packet enter at the router of its source host, and follows it. -/
def journey (limit : Nat) (q : Request) : Except Fault Journey :=
  let index := q.source / f.parameters.hosts
  match ((met 0 index).inject q).1 with
  | .error why => .error why
  | .ok k =>
    let (legs, ending) := f.follow met limit 1 index k
    .ok ⟨k, legs, ending⟩

/-- The class of the wire to the next router, for a leg that leads to one. -/
def wire? (l : Leg) : Option Nat :=
  match f.link l.router l.egress.port with
  | ⟨.router _ _, kind⟩ => some kind
  | _ => none

/-- The classes of the wires between routers, in the order in which they are crossed. -/
def wires (legs : List Leg) : List Nat := legs.filterMap f.wire?

/-- The wires that are crossed from the routers of a group. -/
def wiresOf (group : Nat) (legs : List Leg) : List Nat :=
  f.wires (legs.filter fun l => f.parameters.groupOf l.router = group)

/-- The groups that are visited, each as often as it is come to. -/
def visited (legs : List Leg) : List Nat :=
  (legs.map fun l => f.parameters.groupOf l.router).destutter (· ≠ ·)

/-- Each wire between groups takes the packet to the next channel of its class, no other wire does, and it
never leaves the channels of the class. -/
def Climbs (c : TrafficClass) (legs : List Leg) : Prop :=
  ∀ i leg, legs[i]? = some leg →
    leg.egress.channel = c.start + (f.wires (legs.take (i + 1))).count Link.globalKind ∧
      c.contains leg.egress.channel = true

variable {f met} {limit more hop index next nextPort server : Nat} {k : Packet} {egress : Egress} {t : Transit}
  {legs : List Leg}

theorem follow_of_error {why : Fault}
    (run : (Transit.forwardSeen k.channel).run ⟨met hop index, k⟩ = (.error why, t)) :
    f.follow met (limit + 1) hop index k = ([], .failed why) := by
  rw [follow, run]

theorem follow_of_server (run : (Transit.forwardSeen k.channel).run ⟨met hop index, k⟩ = (.ok egress, t))
    (peer : (f.link index egress.port).peer = .server server) :
    f.follow met (limit + 1) hop index k = ([⟨index, k, egress, t.packet⟩], .delivered server) := by
  rw [follow, run]
  dsimp only
  rw [peer]

theorem follow_of_nothing (run : (Transit.forwardSeen k.channel).run ⟨met hop index, k⟩ = (.ok egress, t))
    (peer : (f.link index egress.port).peer = .nothing) :
    f.follow met (limit + 1) hop index k = ([⟨index, k, egress, t.packet⟩], .unconnected) := by
  rw [follow, run]
  dsimp only
  rw [peer]

theorem follow_of_router (run : (Transit.forwardSeen k.channel).run ⟨met hop index, k⟩ = (.ok egress, t))
    (peer : (f.link index egress.port).peer = .router next nextPort) :
    f.follow met (limit + 1) hop index k =
      (⟨index, k, egress, t.packet⟩ :: (f.follow met limit (hop + 1) next t.packet).1,
        (f.follow met limit (hop + 1) next t.packet).2) := by
  rw [follow, run]
  dsimp only
  rw [peer]

/-- A packet that the first router lets go makes a leg from there. -/
theorem exists_follow_eq_cons (run : (Transit.forwardSeen k.channel).run ⟨met hop index, k⟩ = (.ok egress, t)) :
    ∃ rest, (f.follow met (limit + 1) hop index k).1 = ⟨index, k, egress, t.packet⟩ :: rest := by
  rw [follow, run]
  dsimp only
  split
  · exact ⟨[], rfl⟩
  · exact ⟨[], rfl⟩
  · exact ⟨_, rfl⟩

/-- What a hop keeps, from one router to the next, holds at every leg: the router that is met there finds it, and the
leg is what it does. -/
theorem of_follow {I : Nat → Packet → Prop}
    (hstep : ∀ hop index k egress t next nextPort, I index k →
      (Transit.forwardSeen k.channel).run ⟨met hop index, k⟩ = (.ok egress, t) →
      (f.link index egress.port).peer = .router next nextPort → I next t.packet)
    (hI : I index k) {i : Nat} {leg : Leg} (hleg : (f.follow met limit hop index k).1[i]? = some leg) :
    I leg.router leg.before ∧ ∃ t,
      (Transit.forwardSeen leg.before.channel).run ⟨met (hop + i) leg.router, leg.before⟩ = (.ok leg.egress, t) ∧
        t.packet = leg.after := by
  induction limit generalizing hop index k i with
  | zero => cases hleg
  | succ limit ih =>
    cases hrun : (Transit.forwardSeen k.channel).run ⟨met hop index, k⟩ with
    | mk result t =>
      cases result with
      | error why =>
        rw [follow_of_error hrun] at hleg
        cases hleg
      | ok egress =>
        cases i with
        | zero =>
          obtain ⟨rest, hrest⟩ :
              ∃ rest, (f.follow met (limit + 1) hop index k).1 = ⟨index, k, egress, t.packet⟩ :: rest :=
            exists_follow_eq_cons hrun
          rw [hrest] at hleg
          cases hleg
          exact ⟨hI, t, hrun, rfl⟩
        | succ i =>
          cases hpeer : (f.link index egress.port).peer with
          | server server =>
            rw [follow_of_server hrun hpeer] at hleg
            cases hleg
          | nothing =>
            rw [follow_of_nothing hrun hpeer] at hleg
            cases hleg
          | router next nextPort =>
            rw [follow_of_router hrun hpeer] at hleg
            have hlater := ih (hstep _ _ _ _ _ _ _ hI hrun hpeer) hleg
            rwa [Nat.add_right_comm] at hlater

/-- A journey starts with the packet that the router of the source makes, and follows it from there. -/
theorem of_journey {q : Request} {j : Journey} (h : f.journey met limit q = .ok j) :
    ((met 0 (q.source / f.parameters.hosts)).inject q).1 = .ok j.packet ∧
      j.legs = (f.follow met limit 1 (q.source / f.parameters.hosts) j.packet).1 := by
  rw [journey] at h
  dsimp only at h
  split at h
  · cases h
  · next k hinject =>
    cases h
    exact ⟨hinject, rfl⟩

/-- With a lower limit the journey is cut short, and nothing else. -/
theorem follow_take (f : Fabric) (met : Nat → Nat → Router) (limit more hop index : Nat) (k : Packet) :
    (f.follow met limit hop index k).1 = (f.follow met (limit + more) hop index k).1.take limit := by
  induction limit generalizing hop index k with
  | zero => rw [List.take_zero]; rfl
  | succ limit ih =>
    rw [Nat.succ_add, follow, follow]
    split
    · rfl
    · dsimp only
      split
      · rw [List.take_succ_cons, List.take_nil]
      · rw [List.take_succ_cons, List.take_nil]
      · rw [List.take_succ_cons, ih]

/-! ### Journeys that come to a host -/

/-- The packet comes to a host, by these legs. -/
inductive Delivers (f : Fabric) (met : Nat → Nat → Router) (server : Nat) :
    Nat → Nat → Packet → List Leg → Prop
  | last {hop index : Nat} {k : Packet} {egress : Egress} {t : Transit}
      (run : (Transit.forwardSeen k.channel).run ⟨met hop index, k⟩ = (.ok egress, t))
      (peer : (f.link index egress.port).peer = .server server) :
      Delivers f met server hop index k [⟨index, k, egress, t.packet⟩]
  | next {hop index next nextPort : Nat} {k : Packet} {egress : Egress} {t : Transit} {legs : List Leg}
      (run : (Transit.forwardSeen k.channel).run ⟨met hop index, k⟩ = (.ok egress, t))
      (peer : (f.link index egress.port).peer = .router next nextPort)
      (rest : Delivers f met server (hop + 1) next t.packet legs) :
      Delivers f met server hop index k (⟨index, k, egress, t.packet⟩ :: legs)

/-- **A packet that is delivered by some legs is followed along them.** -/
theorem follow_of_delivers (h : f.Delivers met server hop index k legs) (hl : legs.length ≤ limit) :
    f.follow met limit hop index k = (legs, .delivered server) := by
  induction h generalizing limit with
  | last run peer =>
    cases limit with
    | zero => exact absurd hl (Nat.not_succ_le_zero _)
    | succ limit => exact follow_of_server run peer
  | next run peer rest ih =>
    cases limit with
    | zero => exact absurd hl (Nat.not_succ_le_zero _)
    | succ limit => rw [follow_of_router run peer, ih (Nat.le_of_succ_le_succ hl)]

end Fabric

end DragonflyFabric
