import DragonflyFabric.Proofs.Hosts
import DragonflyFabric.Proofs.Router.Steps

/-!
# Where packets head for

A router changes of a packet no more than where it heads for, by which parallel links, and in which channel it
is. `Visit.pass_redirects` says which changes there are, whatever the router and also where it refuses the
packet: in the group it was sent through a packet turns home, and in its source group an adaptive one may take its
other choice. Both write to the same part of the packet, and never happen at one visit if the packet is well
aimed. Packets are well aimed as they enter and stay so.
-/

namespace DragonflyFabric

/-! ### What a router may change -/

/-- A packet that does not head for its source group, unless this is where its destination is. -/
def Packet.WellAimed (k : Packet) : Prop := k.dest.target = k.origin → k.dest.target = k.dest.group

/-- What is never changed on the way. -/
structure Packet.Keeps (k k' : Packet) : Prop where
  request_eq : k'.request = k.request
  origin_eq : k'.origin = k.origin
  group_eq : k'.dest.group = k.dest.group
  router_eq : k'.dest.router = k.dest.router
  host_eq : k'.dest.host = k.dest.host
  alternate_eq : k'.dest.alternate = k.dest.alternate

/-- A packet that headed straight for its destination and took its other choice. -/
structure Packet.Takes (k k' : Packet) : Prop where
  straight : k.dest.target = k.dest.group
  target_eq : k'.dest.target = k.dest.alternate
  slot_eq : k'.slot = k.otherSlot
  otherSlot_eq : k'.otherSlot = k.slot

/-- A router that a packet is given to, the channel it is said to be in, and what is told of the buffers of the
router; if nothing is, the router looks itself. -/
structure Visit where
  router : Router
  channel : Nat
  seen : Option Congestion

namespace Visit

variable (v : Visit)

def group : Nat := v.router.site.group

/-- What the router does. -/
def handling : Handling Egress :=
  match v.seen with
  | some c => Transit.forward v.channel c
  | none => Transit.forwardSeen v.channel

/-- The packet afterwards, whether the router has let it go or refused it. -/
def pass (k : Packet) : Packet := (v.handling.run ⟨v.router, k⟩).2.packet

/-- The channel is one of an adaptive class. -/
def IsAdaptive : Prop :=
  ∃ network traffic, v.router.site.plan.classOf v.channel = .ok (network, traffic) ∧ traffic.algorithm = .adaptive

/-- What a visit may make of where a packet heads for. -/
inductive Redirects (k k' : Packet) : Prop
  /-- It keeps to its way. -/
  | kept (target_eq : k'.dest.target = k.dest.target) (slot_eq : k'.slot = k.slot)
      (otherSlot_eq : k'.otherSlot = k.otherSlot)
  /-- This is the group it was sent through, and it turns home. -/
  | home (here : v.group = k.dest.target.toNat) (away : k.dest.target ≠ k.dest.group)
      (target_eq : k'.dest.target = k.dest.group) (otherSlot_eq : k'.otherSlot = k.otherSlot)
  /-- This is its source group, and it takes its other choice, which is another group. -/
  | detour (adaptive : v.IsAdaptive) (source : v.group = k.origin.toNat) (other : k.dest.alternate ≠ k.dest.group)
      (elsewhere : v.group ≠ k.dest.alternate.toNat) (takes : k.Takes k')

end Visit

namespace Packet.Keeps

variable {k k' : Packet}

theorem refl (k : Packet) : k.Keeps k := ⟨rfl, rfl, rfl, rfl, rfl, rfl⟩

theorem inChannel (h : k.Keeps k') (channel : Nat) : k.Keeps { k' with channel := channel } :=
  ⟨h.request_eq, h.origin_eq, h.group_eq, h.router_eq, h.host_eq, h.alternate_eq⟩

end Packet.Keeps

theorem Visit.Redirects.inChannel {v : Visit} {k k' : Packet} (h : v.Redirects k k') (channel : Nat) :
    v.Redirects k { k' with channel := channel } := by
  cases h with
  | kept target_eq slot_eq otherSlot_eq => exact .kept target_eq slot_eq otherSlot_eq
  | home here away target_eq otherSlot_eq => exact .home here away target_eq otherSlot_eq
  | detour adaptive source other elsewhere takes =>
    exact .detour adaptive source other elsewhere ⟨takes.straight, takes.target_eq, takes.slot_eq, takes.otherSlot_eq⟩

/-! ### Decisions of any router -/

namespace Site

variable {s : Site} {c : Congestion} {channel : Nat} {k k' : Packet}

theorem stage_within (h : s.group = k.dest.group.toNat) : s.stage k = .arrived ∨ s.stage k = .inDestination := by
  rw [Site.stage, Stage.of, if_pos h]
  split
  · exact .inl rfl
  · exact .inr rfl

theorem stage_away (h : s.group ≠ k.dest.group.toNat) : s.stage k = .atSource ∨ s.stage k = .between := by
  rw [Site.stage, Stage.of, if_neg h]
  split
  · exact .inl rfl
  · exact .inr rfl

theorem adapt_cases (h : s.adapt c channel k = .ok k') : k' = k ∨ k' = k.turned := by
  rw [adapt] at h
  obtain ⟨_, -, h⟩ := ok_of_bind_ok h
  obtain ⟨_, -, h⟩ := ok_of_bind_ok h
  cases h
  split
  · exact .inr rfl
  · exact .inl rfl

end Site

namespace Transit

variable {t : Transit} {algorithm : Algorithm} {channel : Nat} {c : Congestion}

theorem choosePort_within (h : t.router.site.group = t.packet.dest.group.toNat) :
    ((choosePort algorithm (t.router.site.stage t.packet) channel c).run t).2 = t := by
  rw [choosePort_run]
  rcases Site.stage_within h with hstage | hstage <;> rw [hstage]

theorem choosePort_away (h : t.router.site.group ≠ t.packet.dest.group.toNat) :
    ((choosePort algorithm (t.router.site.stage t.packet) channel c).run t).2.packet =
      match t.decided algorithm channel c with
      | .error _ => t.turnHome.packet
      | .ok k => k := by
  rw [choosePort_run]
  cases hdecided : t.decided algorithm channel c
  all_goals
    rw [decided] at hdecided
    rcases Site.stage_away h with hstage | hstage
    all_goals
      rw [hstage] at hdecided ⊢
      dsimp only
      rw [hdecided]

end Transit

namespace Visit

variable {v : Visit} {k k' : Packet} {algorithm : Algorithm} {c : Congestion}

/-- A packet that may turn here was not turned home here: it would have headed for its source group. -/
theorem turnHome_eq_self (hk : k.WellAimed)
    (hmay : v.router.site.mayTurn algorithm (v.router.site.stage k) (Transit.turnHome ⟨v.router, k⟩).packet = true) :
    Transit.turnHome ⟨v.router, k⟩ = ⟨v.router, k⟩ := by
  obtain ⟨haway, hsource⟩ := Stage.of_eq_atSource (Site.of_mayTurn hmay).2.1
  refine if_neg fun hhere => haway (hhere.trans ?_)
  rw [hk (UInt32.toNat_inj.mp (hhere.symm.trans hsource))]

theorem redirects_turnHome (haway : v.group ≠ k.dest.group.toNat) :
    k.Keeps (Transit.turnHome ⟨v.router, k⟩).packet ∧ v.Redirects k (Transit.turnHome ⟨v.router, k⟩).packet := by
  rw [Transit.turnHome]
  dsimp only
  split
  · next hhere =>
    have htarget : k.dest.target ≠ k.dest.group := fun heq => haway (hhere.trans (by rw [heq]))
    exact ⟨⟨rfl, rfl, rfl, rfl, rfl, rfl⟩, .home hhere htarget rfl rfl⟩
  · exact ⟨.refl k, .kept rfl rfl rfl⟩

/-- At most one of the two changes is made. -/
theorem redirects_decided (hk : k.WellAimed) (haway : v.group ≠ k.dest.group.toNat)
    (hadaptive : algorithm = .adaptive → v.IsAdaptive)
    (h : Transit.decided ⟨v.router, k⟩ algorithm v.channel c = .ok k') : k.Keeps k' ∧ v.Redirects k k' := by
  rw [Transit.decided] at h
  split at h
  · next hmay =>
    have hhome := turnHome_eq_self hk hmay
    rw [hhome] at hmay h
    obtain ⟨halgorithm, hstage, hstraight, hother, helsewhere⟩ := Site.of_mayTurn hmay
    obtain ⟨-, hsource⟩ := Stage.of_eq_atSource hstage
    rcases Site.adapt_cases h with rfl | rfl
    · exact ⟨.refl _, .kept rfl rfl rfl⟩
    · exact ⟨⟨rfl, rfl, rfl, rfl, rfl, rfl⟩,
        .detour (hadaptive halgorithm) hsource hother (Ne.symm helsewhere) ⟨hstraight, rfl, rfl, rfl⟩⟩
  · cases h
    exact redirects_turnHome haway

theorem redirects_choosePort (hk : k.WellAimed) (hadaptive : algorithm = .adaptive → v.IsAdaptive) {k' : Packet}
    (h : ((Transit.choosePort algorithm (v.router.site.stage k) v.channel c).run ⟨v.router, k⟩).2.packet = k') :
    k.Keeps k' ∧ v.Redirects k k' := by
  by_cases hhere : v.group = k.dest.group.toNat
  · rw [Transit.choosePort_within (t := ⟨v.router, k⟩) hhere] at h
    subst h
    exact ⟨.refl k, .kept rfl rfl rfl⟩
  · rw [Transit.choosePort_away (t := ⟨v.router, k⟩) hhere] at h
    cases hdecided : Transit.decided ⟨v.router, k⟩ algorithm v.channel c with
    | ok k₁ =>
      rw [hdecided] at h
      subst h
      exact redirects_decided hk hhere hadaptive hdecided
    | error e =>
      rw [hdecided] at h
      subst h
      exact redirects_turnHome hhere

/-- **A router changes of a packet where it heads for**, in one of three ways, also when it refuses the packet. -/
theorem pass_redirects (v : Visit) (hk : k.WellAimed) : k.Keeps (v.pass k) ∧ v.Redirects k (v.pass k) := by
  let I (t : Transit) : Prop := k.Keeps t.packet ∧ v.Redirects k t.packet
  have hstart : I ⟨v.router, k⟩ := ⟨.refl k, .kept rfl rfl rfl⟩
  have hforward : ∀ c, I ((Transit.forward v.channel c).run ⟨v.router, k⟩).2 := by
    intro c
    refine Transit.kept_of_forward (I := I) hstart (fun network traffic hclass _ => ?_) fun t next h => ?_
    · exact redirects_choosePort hk (fun hadaptive => ⟨network, traffic, hclass, hadaptive⟩) rfl
    · exact ⟨h.1.inChannel next, h.2.inChannel next⟩
  show I (v.handling.run ⟨v.router, k⟩).2
  rw [handling]
  split
  · exact hforward _
  · exact Transit.kept_of_forwardSeen (I := I) hstart hforward

/-- A well aimed packet stays so. -/
theorem Redirects.wellAimed (hk : k.WellAimed) (hkeeps : k.Keeps k') (h : v.Redirects k k') : k'.WellAimed := by
  rw [Packet.WellAimed, hkeeps.origin_eq, hkeeps.group_eq]
  cases h with
  | kept target_eq => rwa [target_eq]
  | home _ _ target_eq => exact fun _ => target_eq
  | detour _ source _ elsewhere takes =>
    intro hsource
    rw [takes.target_eq] at hsource
    exact absurd (source.trans (by rw [hsource])) elsewhere

theorem wellAimed_pass (v : Visit) (hk : k.WellAimed) : (v.pass k).WellAimed :=
  have ⟨hkeeps, h⟩ := v.pass_redirects hk
  h.wellAimed hk hkeeps

end Visit

/-! ### Packets that are well aimed -/

namespace Transit

variable {t t' : Transit} {algorithm : Algorithm} {through destination : Nat}

/-- A packet that is sent through a group is not sent through its own. -/
theorem wellAimed_of_divert (hgroups : t.router.site.parameters.groups ≤ 2 ^ 32)
    (h : (divert through).run t = (.ok (), t')) : t'.packet.WellAimed := by
  rw [divert_run] at h
  split at h
  · cases h
  · next hthrough =>
    cases h
    push Not at hthrough
    have hto : (UInt32.ofNat through).toNat = through :=
      UInt32.toNat_ofNat_of_lt' (lt_of_lt_of_le hthrough.2.2 hgroups)
    exact fun hsource => absurd (by rw [← hto]; exact congrArg UInt32.toNat hsource) hthrough.1

theorem wellAimed_of_choose (hgroups : t.router.site.parameters.groups ≤ 2 ^ 32)
    (hstraight : t.packet.dest.target = t.packet.dest.group)
    (h : (choose algorithm destination).run t = (.ok (), t')) : t'.packet.WellAimed := by
  rw [choose_run] at h
  dsimp only at h
  split at h
  · cases h
    exact fun _ => hstraight
  split at h
  · cases h
    exact fun _ => hstraight
  split at h
  · refine wellAimed_of_divert ?_ h
    simpa [takeSlot] using hgroups
  · cases h
    exact fun _ => hstraight

end Transit

/-- A packet that has just entered is well aimed. -/
theorem Router.wellAimed_of_inject {r : Router} {q : Request} {k : Packet} (hgroups : r.site.parameters.groups ≤ 2 ^ 32)
    (h : (r.inject q).1 = .ok k) : k.WellAimed := by
  rw [inject] at h
  dsimp only at h
  split at h
  · cases h
  · next dest c hchecked =>
    obtain ⟨_, hlocate, hchecked⟩ := ok_of_bind_ok hchecked
    obtain ⟨_, -, hchecked⟩ := ok_of_bind_ok hchecked
    cases hchecked
    have hstraight := (Parameters.straight_of_locate hlocate).1
    split at h
    · cases h
      exact fun _ => hstraight
    · cases hrun : (Transit.choose c.algorithm dest.group.toNat).run (Transit.enter r q c.start dest) with
      | mk result t =>
        rw [hrun] at h
        cases result with
        | error e => cases h
        | ok u =>
          cases h
          exact Transit.wellAimed_of_choose hgroups hstraight hrun

end DragonflyFabric
