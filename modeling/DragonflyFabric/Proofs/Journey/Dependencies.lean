import DragonflyFabric.Proofs.Journey.Itinerary
import Mathlib.Logic.Relation

/-!
# Channels do not wait for each other in a circle

A packet that holds a lane, which is a channel of the wire to another router, may wait for the lane of its
next hop: the one depends on the other. `Lane.rank` never falls along such a dependency. It stays the same
for two hops within a group alone, and of these only an adaptive packet takes one after the other.

* `acyclic_dependencies`: no lane depends on itself, through any number of others, if no packet is adaptive;
  and where packets are, no lane between groups does.
-/

namespace DragonflyFabric

/-- A channel of a port of a router. -/
structure Lane where
  router : Nat
  port : Nat
  channel : Nat
  deriving DecidableEq

/-- The lane that is taken. -/
def Leg.lane (l : Leg) : Lane := ⟨l.router, l.egress.port, l.egress.channel⟩

namespace Installation

/-- A lane depends on another when some packet of a class with one of the algorithms takes both, one after
the other, to other routers. The packet goes between any two hosts; it entered with any slots and, where its
algorithm asks for one, any intermediate group; and the routers are met in any states. -/
inductive Depends (n : Installation) (algorithms : Algorithm → Prop) : Lane → Lane → Prop
  | step {met : Nat → Nat → Router} {q : Request} {c : TrafficClass} {k : Packet} {limit hop i : Nat}
      {leg next : Leg} (running : n.Running met) (source : q.source < n.parameters.hostCount)
      (network : n.plan.get q.network = .ok c) (algorithm : algorithms c.algorithm)
      (entered : k.Entered n c (n.home q.source) q)
      (first : (n.fabric.follow met limit hop (n.home q.source) k).1[i]? = some leg)
      (second : (n.fabric.follow met limit hop (n.home q.source) k).1[i + 1]? = some next)
      (onward : (n.fabric.wire? leg).isSome) (further : (n.fabric.wire? next).isSome) :
      Depends n algorithms leg.lane next.lane

/-- The wire of the lane is one between groups. -/
def isGlobal (n : Installation) (a : Lane) : Prop := (n.fabric.link a.router a.port).kind = Link.globalKind

instance (n : Installation) (a : Lane) : Decidable (n.isGlobal a) :=
  inferInstanceAs (Decidable (_ = _))

/-- Lanes between groups come before those within groups that have the same channel. -/
def rank (n : Installation) (a : Lane) : Nat := if n.isGlobal a then 2 * a.channel else 2 * a.channel + 1

variable {n : Installation} {algorithms : Algorithm → Prop} {a b : Lane}

theorem isGlobal_lane_iff {leg : Leg} (h : (n.fabric.wire? leg).isSome) :
    n.isGlobal leg.lane ↔ n.fabric.wire? leg = some Link.globalKind := by
  rw [isGlobal, Leg.lane, Fabric.wire?] at *
  split at h
  · next hlink =>
    rw [hlink]
    exact ⟨congrArg some, Option.some.inj⟩
  · cases h

/-- What one dependency does to the rank. -/
theorem Depends.spec (h : n.Depends algorithms a b) :
    b.channel = (if n.isGlobal b then a.channel + 1 else a.channel) ∧
      (¬algorithms .adaptive → n.isGlobal a ∨ n.isGlobal b) := by
  cases h with
  | @step met q c k limit hop i leg next running source network algorithm entered first second onward further =>
    obtain ⟨legs, hmarks, hlegs⟩ := exists_legs running network (Parameters.div_hosts_lt source) entered hop
    rw [(hlegs limit).1] at first second
    have hfirst := Fabric.getElem?_mark (f := n.fabric) first
    have hsecond := Fabric.getElem?_mark (f := n.fabric) second
    refine ⟨?_, ?_⟩
    · have hstep := hmarks.climbs.step hfirst hsecond
      simp only [isGlobal_lane_iff further]
      exact hstep
    · intro hnone
      have hne : c.algorithm ≠ .adaptive := fun heq => hnone (heq ▸ algorithm)
      rw [isGlobal_lane_iff onward, isGlobal_lane_iff further]
      rcases (hmarks.alternates hne).step hfirst hsecond with hhost | hglobal
      · have hwire : n.fabric.wire? next = none := hhost
        rw [hwire] at further
        cases further
      · exact hglobal

/-- Lanes that a journey takes one after the other depend on each other. -/
theorem depends_of_journey {met : Nat → Nat → Router} {q : Request} {c : TrafficClass} {limit i : Nat} {j : Journey}
    {leg next : Leg} (hmet : n.Running met) (hs : q.source < n.parameters.hostCount)
    (hd : q.destination < n.parameters.hostCount) (hc : n.plan.get q.network = .ok c)
    (halgorithm : algorithms c.algorithm) (hj : n.fabric.journey met limit q = .ok j)
    (hfirst : j.legs[i]? = some leg) (hsecond : j.legs[i + 1]? = some next)
    (honward : (n.fabric.wire? leg).isSome) (hfurther : (n.fabric.wire? next).isSome) :
    n.Depends algorithms leg.lane next.lane := by
  obtain ⟨k, hinject, hk⟩ := (hmet 0 _ (Parameters.div_hosts_lt hs)).inject_spec hd hc
  rw [Fabric.journey, fabric_parameters, hinject] at hj
  cases hj
  exact .step hmet hs hc halgorithm hk hfirst hsecond honward hfurther

/-- The lanes of a minimal packet, three wires and the one to its host. -/
example :
    ((sample.fabric.journey (fun _ index => sample.newRouter index sample.plan.total) 4 ⟨0, 5, 0, 64⟩).map
      fun j => j.legs.map Leg.lane).toOption = some [⟨0, 1, 0⟩, ⟨1, 2, 1⟩, ⟨4, 1, 1⟩, ⟨5, 0, 1⟩] := by
  decide +kernel

/-- Along a dependency the rank does not fall. -/
theorem Depends.rank_le (h : n.Depends algorithms a b) : n.rank a ≤ n.rank b := by
  have hchannel := h.spec.1
  rw [rank, rank]
  split at hchannel <;> split <;> omega

/-- It grows if one of the wires is between groups. -/
theorem Depends.rank_lt (h : n.Depends algorithms a b) (hglobal : n.isGlobal a ∨ n.isGlobal b) :
    n.rank a < n.rank b := by
  have hchannel := h.spec.1
  rw [rank, rank]
  by_cases hb : n.isGlobal b
  · rw [if_pos hb] at hchannel ⊢
    split <;> omega
  · rw [if_neg hb] at hchannel ⊢
    rw [if_pos (hglobal.resolve_right hb)]
    omega

theorem rank_le_of_reflTransGen (h : Relation.ReflTransGen (n.Depends algorithms) a b) : n.rank a ≤ n.rank b := by
  induction h with
  | refl => exact Nat.le_refl _
  | tail _ hstep ih => exact Nat.le_trans ih hstep.rank_le

/-- **Minimal and Valiant packets never wait in a circle**, and in no circle of waiting packets is there a lane
between groups. -/
theorem acyclic_dependencies (n : Installation) :
    (¬∃ a, Relation.TransGen (n.Depends fun x => x = .minimal ∨ x = .valiant) a a) ∧
      ∀ algorithms, ¬∃ a, n.isGlobal a ∧ Relation.TransGen (n.Depends algorithms) a a := by
  constructor
  · rintro ⟨a, hcycle⟩
    obtain ⟨b, hstep, hrest⟩ := Relation.TransGen.head'_iff.mp hcycle
    have hgrows := hstep.rank_lt (hstep.spec.2 (by decide))
    have hkeeps := rank_le_of_reflTransGen hrest
    omega
  · rintro algorithms ⟨a, hglobal, hcycle⟩
    obtain ⟨b, hstep, hrest⟩ := Relation.TransGen.head'_iff.mp hcycle
    have hgrows := hstep.rank_lt (.inl hglobal)
    have hkeeps := rank_le_of_reflTransGen hrest
    omega

end Installation

end DragonflyFabric
