import DragonflyFabric.Proofs.Router.Rotation

/-!
# What a refusal leaves behind

A router that refuses a packet does not take back what it has decided on for it. `Transit.Leaves` says what there is to
find afterwards: nothing new, as long as one of the first checks fails or no decision is due; the packet turned home,
with the slot that was drawn for that; or an adaptive packet turned to its other choice.

A decision that was taken is not taken again. `Transit.choosePort_again` shows that the choice of a port comes to the
same from the state it has left behind, and `Visit.leaves_handling` that a refused packet can be presented as often as
one likes.
-/

namespace DragonflyFabric

/-! ### Parts that decisions do not touch -/

namespace Site

variable {s : Site} {k k' : Packet} {dest : Address} {group slot port channel : Nat} {c : Congestion}

theorem stage_eq_of_keeps (h : k.Keeps k') : s.stage k' = s.stage k := by
  rw [stage, stage, Stage.of, Stage.of, h.origin_eq, h.group_eq, h.router_eq]

theorem lt_of_portToGroup {position : Option Nat} (h : s.portToGroup group slot position = .ok port) :
    group < s.parameters.groups := by
  by_cases hbad : group = s.group ∨ s.parameters.groups ≤ group
  · rw [portToGroup] at h
    dsimp only at h
    rw [if_pos hbad] at h
    cases h
  · omega

/-- A packet turns to its other choice only if that is a group. -/
theorem alternate_lt_of_adapt (h : s.adapt c channel k = .ok k') : k.dest.alternate.toNat < s.parameters.groups := by
  rw [adapt] at h
  obtain ⟨_, -, h⟩ := ok_of_bind_ok h
  obtain ⟨_, haround, _⟩ := ok_of_bind_ok h
  exact lt_of_portToGroup haround

/-- An address stays one that packets can be sent to when it goes by way of another group. -/
theorem checkDestination_retarget (h : s.checkDestination dest = .ok ()) {target : UInt32}
    (htarget : target.toNat < s.parameters.groups) : s.checkDestination { dest with target := target } = .ok () := by
  rw [checkDestination] at h ⊢
  dsimp only at h ⊢
  split at h
  · cases h
  · next hgood =>
    push Not at hgood
    rw [if_neg]
    push Not
    exact ⟨hgood.1, hgood.2.1, hgood.2.2.1, hgood.2.2.2.1, htarget⟩

end Site

namespace Transit

variable {t t' : Transit} {algorithm : Algorithm} {channel : Nat} {c : Congestion}

/-- Turning home takes a slot from the router, and writes to the packet where it heads for and by which link. -/
theorem turnHome_eq (t : Transit) :
    t.turnHome =
      { router := { t.router with
          counters := t.turnHome.router.counters
          random := t.turnHome.router.random }
        packet := { t.packet with
          dest := { t.packet.dest with target := t.turnHome.packet.dest.target }
          slot := t.turnHome.packet.slot } } := by
  by_cases hhere : t.router.site.group = t.packet.dest.target.toNat
  · rw [turnHome_of_here hhere, takeSlot]
    dsimp only
    rw [Router.router_chooseSlot]
  · rw [turnHome_of_elsewhere hhere]

@[simp] theorem site_turnHome (t : Transit) : t.turnHome.router.site = t.router.site := by
  rw [turnHome_eq]

theorem congestion_turnHome (t : Transit) : t.turnHome.router.congestion = t.router.congestion := by
  rw [turnHome_eq]
  rfl

theorem keeps_turnHome (t : Transit) : t.packet.Keeps t.turnHome.packet := by
  rw [turnHome_eq]
  exact ⟨rfl, rfl, rfl, rfl, rfl, rfl⟩

@[simp] theorem stage_turnHome (t : Transit) :
    t.turnHome.router.site.stage t.turnHome.packet = t.router.site.stage t.packet := by
  rw [site_turnHome, Site.stage_eq_of_keeps t.keeps_turnHome]

/-- Outside the group of its destination a packet turns home once. -/
theorem turnHome_turnHome (haway : t.router.site.group ≠ t.packet.dest.group.toNat) :
    t.turnHome.turnHome = t.turnHome := by
  by_cases hhere : t.router.site.group = t.packet.dest.target.toNat
  · refine turnHome_of_elsewhere ?_
    rw [site_turnHome, turnHome_of_here hhere]
    exact haway
  · rw [turnHome_of_elsewhere hhere, turnHome_of_elsewhere hhere]

/-- The decisions after the turn home are the same as before it. -/
theorem decided_turnHome (haway : t.router.site.group ≠ t.packet.dest.group.toNat) :
    t.turnHome.decided algorithm channel c = t.decided algorithm channel c := by
  rw [decided, decided, turnHome_turnHome haway, site_turnHome, Site.stage_eq_of_keeps t.keeps_turnHome]

theorem choosePort_run_away (haway : t.router.site.group ≠ t.packet.dest.group.toNat) :
    (choosePort algorithm (t.router.site.stage t.packet) channel c).run t =
      match t.decided algorithm channel c with
      | .error f => (.error f, t.turnHome)
      | .ok k =>
        (t.router.site.portToGroup k.dest.target.toNat k.slot.toNat none, { t.turnHome with packet := k }) := by
  have hstage := Site.stage_away haway
  rw [choosePort_run, decided]
  generalize t.router.site.stage t.packet = stage at hstage ⊢
  rcases hstage with rfl | rfl
  · rfl
  · rfl

/-- A packet that has taken its other choice has no decision left. -/
theorem decided_of_turned {k : Packet} (hmay : t.router.site.mayTurn algorithm (t.router.site.stage k) k = true) :
    ({ t with packet := k.turned } : Transit).turnHome = { t with packet := k.turned } ∧
      ({ t with packet := k.turned } : Transit).decided algorithm channel c = .ok k.turned := by
  obtain ⟨-, -, -, hother, helsewhere⟩ := Site.of_mayTurn hmay
  have hhome : ({ t with packet := k.turned } : Transit).turnHome = { t with packet := k.turned } :=
    turnHome_of_elsewhere (Ne.symm helsewhere)
  refine ⟨hhome, ?_⟩
  rw [decided, hhome, if_neg]
  intro hagain
  exact hother (Site.of_mayTurn hagain).2.2.1

/-! ### The choice of a port -/

/-- What there is to find after a packet was handled, apart from the channel it goes on in. -/
inductive Leaves (adaptive : Prop) (t : Transit) : Transit → Prop
  | nothing : Leaves adaptive t t
  /-- This is the group it was sent through, and it has turned home. -/
  | home (here : t.router.site.group = t.packet.dest.target.toNat)
      (away : t.router.site.group ≠ t.packet.dest.group.toNat) : Leaves adaptive t t.turnHome
  /-- This is its source group, and it has taken its other choice, which is another group. -/
  | detour (adaptive_class : adaptive) (source : t.router.site.group = t.packet.origin.toNat)
      (away : t.router.site.group ≠ t.packet.dest.group.toNat) (other : t.packet.dest.alternate ≠ t.packet.dest.group)
      (elsewhere : t.packet.dest.alternate.toNat ≠ t.router.site.group)
      (alternate_lt : t.packet.dest.alternate.toNat < t.router.site.parameters.groups) :
      Leaves adaptive t { t.turnHome with packet := t.turnHome.packet.turned }

namespace Leaves

variable {adaptive : Prop} (h : t.Leaves adaptive t')

include h

theorem imp {detours : Prop} (himp : adaptive → detours) : t.Leaves detours t' := by
  cases h with
  | nothing => exact .nothing
  | home here away => exact .home here away
  | detour adaptive_class source away other elsewhere lt =>
    exact .detour (himp adaptive_class) source away other elsewhere lt

/-- Nothing of the router changes but what slots are drawn from. -/
theorem router_eq :
    t'.router = { t.router with counters := t'.router.counters, random := t'.router.random } := by
  cases h with
  | nothing => rfl
  | home => rw [turnHome_eq]
  | detour =>
    dsimp only
    rw [turnHome_eq]

theorem site_eq : t'.router.site = t.router.site := by
  rw [h.router_eq]

theorem congestion_eq : t'.router.congestion = t.router.congestion := by
  rw [h.router_eq]
  rfl

theorem keeps : t.packet.Keeps t'.packet ∧ t'.packet.channel = t.packet.channel := by
  cases h with
  | nothing => exact ⟨.refl _, rfl⟩
  | home => exact ⟨keeps_turnHome t, by rw [turnHome_eq]⟩
  | detour =>
    rw [turnHome_eq]
    exact ⟨⟨rfl, rfl, rfl, rfl, rfl, rfl⟩, rfl⟩

/-- The packet still heads for one of the groups. -/
theorem checkDestination_eq (hdest : t.router.site.checkDestination t.packet.dest = .ok ()) :
    t'.router.site.checkDestination t'.packet.dest = .ok () := by
  rw [h.site_eq]
  cases h with
  | nothing => exact hdest
  | home here =>
    rw [turnHome_of_here here]
    exact Site.checkDestination_retarget hdest (Site.group_lt_of_checkDestination hdest)
  | detour _ _ _ _ _ alternate_lt =>
    rw [turnHome_eq]
    exact Site.checkDestination_retarget hdest alternate_lt

end Leaves

theorem away_turnHome (haway : t.router.site.group ≠ t.packet.dest.group.toNat) :
    t.turnHome.router.site.group ≠ t.turnHome.packet.dest.group.toNat := by
  rwa [site_turnHome, t.keeps_turnHome.group_eq]

/-- A packet is decided on as it is after its turn home, or it takes its other choice. -/
theorem decided_cases {k : Packet} (h : t.decided algorithm channel c = .ok k) :
    k = t.turnHome.packet ∨
      k = t.turnHome.packet.turned ∧
        t.router.site.mayTurn algorithm (t.router.site.stage t.packet) t.turnHome.packet = true ∧
        t.packet.dest.alternate.toNat < t.router.site.parameters.groups := by
  rw [decided] at h
  split at h
  · next hmay =>
    have hlt := Site.alternate_lt_of_adapt h
    rw [t.keeps_turnHome.alternate_eq] at hlt
    exact (Site.adapt_cases h).imp_right fun hk => ⟨hk, hmay, hlt⟩
  · cases h
    exact .inl rfl

theorem leaves_choosePort (algorithm : Algorithm) (channel : Nat) (c : Congestion) (t : Transit) :
    t.Leaves (algorithm = .adaptive) ((choosePort algorithm (t.router.site.stage t.packet) channel c).run t).2 := by
  by_cases hwithin : t.router.site.group = t.packet.dest.group.toNat
  · rw [choosePort_within hwithin]
    exact .nothing
  have hhome : t.Leaves (algorithm = .adaptive) t.turnHome := by
    by_cases hhere : t.router.site.group = t.packet.dest.target.toNat
    · exact .home hhere hwithin
    · rw [turnHome_of_elsewhere hhere]
      exact .nothing
  rw [choosePort_run_away hwithin]
  cases hdecided : t.decided algorithm channel c with
  | error f => exact hhome
  | ok k =>
    rcases decided_cases hdecided with rfl | ⟨rfl, hmay, hlt⟩
    · exact hhome
    · obtain ⟨halgorithm, hstage, -, hother, helsewhere⟩ := Site.of_mayTurn hmay
      rw [t.keeps_turnHome.alternate_eq] at hother helsewhere
      rw [t.keeps_turnHome.group_eq] at hother
      exact .detour halgorithm (Stage.of_eq_atSource hstage).2 hwithin hother helsewhere hlt

/-- **A decision that was taken is not taken again**: from the state it has left behind, the choice of a port comes to
the same, and leaves that state as it is. -/
theorem choosePort_again {result : Except Fault Nat}
    (h : (choosePort algorithm (t.router.site.stage t.packet) channel c).run t = (result, t')) :
    (choosePort algorithm (t'.router.site.stage t'.packet) channel c).run t' = (result, t') := by
  by_cases hwithin : t.router.site.group = t.packet.dest.group.toNat
  · have hsame : ((choosePort algorithm (t.router.site.stage t.packet) channel c).run t).2 = t :=
      choosePort_within hwithin
    rw [h] at hsame
    obtain rfl : t' = t := hsame
    exact h
  have hafter := away_turnHome hwithin
  rw [choosePort_run_away hwithin] at h
  cases hdecided : t.decided algorithm channel c with
  | error f =>
    rw [hdecided] at h
    cases h
    rw [choosePort_run_away hafter, decided_turnHome hwithin, hdecided, turnHome_turnHome hwithin]
  | ok k =>
    rw [hdecided] at h
    rcases decided_cases hdecided with rfl | ⟨rfl, hmay, -⟩
    · cases h
      show (choosePort algorithm (t.turnHome.router.site.stage t.turnHome.packet) channel c).run t.turnHome = _
      rw [choosePort_run_away hafter, decided_turnHome hwithin, hdecided, turnHome_turnHome hwithin]
      dsimp only
      rw [site_turnHome]
    · cases h
      rw [← stage_turnHome, ← site_turnHome] at hmay
      obtain ⟨hhome, hturned⟩ := decided_of_turned (t := t.turnHome) hmay
      rw [choosePort_run_away (t := { t.turnHome with packet := t.turnHome.packet.turned }) hafter, hturned, hhome]
      dsimp only
      rw [site_turnHome]

/-! ### Refusals -/

/-- The channel behind a port, which has to be one of the class. -/
def nextChannel (s : Site) (traffic : TrafficClass) (channel port : Nat) : Except Fault Nat := do
  let _ ← s.parameters.classOf port
  let next := s.channelBehind port channel
  if !traffic.contains next then
    throw (.outOfChannels traffic.algorithm next traffic.stop)
  return next

/-- What happens to a packet step by step. -/
theorem forward_eq (channel : Nat) (c : Congestion) (t : Transit) :
    (forward channel c).run t =
      match t.router.site.plan.classOf channel with
      | .error f => (.error f, t)
      | .ok (_, traffic) =>
        match t.router.site.checkDestination t.packet.dest with
        | .error f => (.error f, t)
        | .ok _ =>
          match (choosePort traffic.algorithm (t.router.site.stage t.packet) channel c).run t with
          | (.error f, t') => (.error f, t')
          | (.ok port, t') =>
            match nextChannel t.router.site traffic channel port with
            | .error f => (.error f, t')
            | .ok next =>
              (.ok ⟨port, next,
                  if t'.packet.dest.target ≠ t'.packet.dest.group ∨ t.router.site.stage t.packet = .between then 1
                  else 0⟩,
                { t' with packet := { t'.packet with channel := next } }) := by
  rw [forward, run_bind_ok (get_run t)]
  dsimp only
  cases hclass : t.router.site.plan.classOf channel with
  | error f => exact run_bind_error run_liftM
  | ok found =>
    obtain ⟨index, traffic⟩ := found
    rw [run_bind_ok run_liftM]
    dsimp only
    cases hdest : t.router.site.checkDestination t.packet.dest with
    | error f => exact run_bind_error run_liftM
    | ok _ =>
      rw [run_bind_ok run_liftM]
      cases hport : (choosePort traffic.algorithm (t.router.site.stage t.packet) channel c).run t with
      | mk result t' =>
        cases result with
        | error f => exact run_bind_error hport
        | ok port =>
          rw [run_bind_ok hport]
          dsimp only
          rw [nextChannel]
          cases hkind : t.router.site.parameters.classOf port with
          | error f => rfl
          | ok kind =>
            have hdiscard : (discard (liftM (.ok kind : Except Fault PortClass)) : Handling Unit).run t' = (.ok (), t') :=
              rfl
            rw [run_bind_ok hdiscard]
            dsimp only [bind, Except.bind]
            cases hroom : traffic.contains (t.router.site.channelBehind port channel) with
            | false => rfl
            | true => rfl

/-- What is refused behind the first checks is refused again from the state it has left behind: the choice of a port
comes to the same there, and what comes after it looks at the site alone. -/
theorem forward_again {index : Nat} {traffic : TrafficClass} {f : Fault}
    (hclass : t.router.site.plan.classOf channel = .ok (index, traffic))
    (hdest : t.router.site.checkDestination t.packet.dest = .ok ()) (h : (forward channel c).run t = (.error f, t')) :
    t.Leaves (traffic.algorithm = .adaptive) t' ∧ (forward channel c).run t' = (.error f, t') := by
  have hleaves := leaves_choosePort traffic.algorithm channel c t
  rw [forward_eq, hclass] at h
  dsimp only at h
  rw [hdest] at h
  dsimp only at h
  cases hport : (choosePort traffic.algorithm (t.router.site.stage t.packet) channel c).run t with
  | mk result t₁ =>
    rw [hport] at h hleaves
    dsimp only at hleaves
    have hagain := choosePort_again hport
    have hdest' := hleaves.checkDestination_eq hdest
    have hsecond := forward_eq channel c t₁
    rw [hleaves.site_eq] at hagain hdest' hsecond
    rw [hclass] at hsecond
    dsimp only at hsecond
    rw [hdest', hagain] at hsecond
    dsimp only at h hsecond
    cases result with
    | error g =>
      cases h
      exact ⟨hleaves, hsecond⟩
    | ok port =>
      dsimp only at h hsecond
      cases hnext : nextChannel t.router.site traffic channel port with
      | ok next =>
        rw [hnext] at h
        cases h
      | error g =>
        rw [hnext] at h hsecond
        cases h
        exact ⟨hleaves, hsecond⟩

theorem checkDestination_turnHome (hdest : t.router.site.checkDestination t.packet.dest = .ok ()) :
    t.router.site.checkDestination t.turnHome.packet.dest = .ok () := by
  by_cases hhere : t.router.site.group = t.packet.dest.target.toNat
  · rw [turnHome_of_here hhere]
    exact Site.checkDestination_retarget hdest (Site.group_lt_of_checkDestination hdest)
  · rwa [turnHome_of_elsewhere hhere]

/-- A packet that has turned home gets the answer that it would have got before, from any channel and with any
buffers. -/
theorem fst_forward_turnHome (hdest : t.router.site.checkDestination t.packet.dest = .ok ())
    (haway : t.router.site.group ≠ t.packet.dest.group.toNat) (channel : Nat) (c : Congestion) :
    ((forward channel c).run t.turnHome).1 = ((forward channel c).run t).1 := by
  rw [forward_eq, forward_eq, site_turnHome]
  cases hclass : t.router.site.plan.classOf channel with
  | error f => rfl
  | ok found =>
    obtain ⟨index, traffic⟩ := found
    dsimp only
    have hstage := Site.stage_eq_of_keeps (s := t.router.site) t.keeps_turnHome
    have hafter : (choosePort traffic.algorithm _ channel c).run t.turnHome = _ :=
      choosePort_run_away (away_turnHome haway)
    rw [decided_turnHome haway, turnHome_turnHome haway, stage_turnHome, site_turnHome] at hafter
    rw [hdest, checkDestination_turnHome hdest, hstage, hafter, choosePort_run_away haway]

end Transit

namespace Visit

variable {v : Visit} {k : Packet} {f : Fault} {t' : Transit}

/-- The checks that come first: the buffers can be looked at, the channel is one of a class, and the address is one that
packets can be sent to. -/
structure Checks (v : Visit) (k : Packet) : Prop where
  buffers : v.seen = none → ∃ c, v.router.congestion = .ok c
  channel : ∃ found, v.router.site.plan.classOf v.channel = .ok found
  address : v.router.site.checkDestination k.dest = .ok ()

theorem handling_run (v : Visit) (t : Transit) :
    v.handling.run t =
      match v.seen with
      | some c => (Transit.forward v.channel c).run t
      | none =>
        match t.router.congestion with
        | .error f => (.error f, t)
        | .ok c => (Transit.forward v.channel c).run t := by
  rw [handling]
  cases v.seen with
  | some c => rfl
  | none =>
    dsimp only
    cases hseen : t.router.congestion with
    | error f =>
      rw [Transit.forwardSeen, run_bind_ok (Transit.get_run t)]
      exact run_bind_error (run_liftM.trans (by rw [hseen]))
    | ok c => exact Transit.forwardSeen_run hseen

/-- With buffers that can be looked at: what is refused is refused again, and nothing at all is left behind where the
channel or the address is at fault. -/
theorem leaves_forward {c : Congestion} (hbuffers : v.seen = none → ∃ c, v.router.congestion = .ok c)
    (h : (Transit.forward v.channel c).run ⟨v.router, k⟩ = (.error f, t')) :
    Transit.Leaves v.IsAdaptive ⟨v.router, k⟩ t' ∧ (¬v.Checks k → t' = ⟨v.router, k⟩) ∧
      (Transit.forward v.channel c).run t' = (.error f, t') := by
  have hrun := h
  rw [Transit.forward_eq] at hrun
  dsimp only at hrun
  cases hclass : v.router.site.plan.classOf v.channel with
  | error g =>
    rw [hclass] at hrun
    cases hrun
    exact ⟨.nothing, fun _ => rfl, h⟩
  | ok found =>
    obtain ⟨index, traffic⟩ := found
    rw [hclass] at hrun
    dsimp only at hrun
    cases hdest : v.router.site.checkDestination k.dest with
    | error g =>
      rw [hdest] at hrun
      cases hrun
      exact ⟨.nothing, fun _ => rfl, h⟩
    | ok _ =>
      have hchecks : v.Checks k := ⟨hbuffers, ⟨_, hclass⟩, hdest⟩
      obtain ⟨hleaves, hagain⟩ := Transit.forward_again (t := ⟨v.router, k⟩) hclass hdest h
      exact ⟨hleaves.imp fun hadaptive => ⟨index, traffic, hclass, hadaptive⟩, fun hnot => absurd hchecks hnot, hagain⟩

/-- **What is refused is refused again**, with nothing more to find. -/
theorem leaves_handling (h : v.handling.run ⟨v.router, k⟩ = (.error f, t')) :
    Transit.Leaves v.IsAdaptive ⟨v.router, k⟩ t' ∧ (¬v.Checks k → t' = ⟨v.router, k⟩) ∧
      (Visit.mk t'.router v.channel v.seen).handling.run t' = (.error f, t') := by
  rw [handling_run] at h
  cases hseen : v.seen with
  | some c =>
    rw [hseen] at h
    obtain ⟨hleaves, hnothing, hagain⟩ := leaves_forward (by rw [hseen]; exact fun h => by cases h) h
    refine ⟨hleaves, hnothing, ?_⟩
    rw [handling_run]
    exact hagain
  | none =>
    rw [hseen] at h
    dsimp only at h
    cases hbuffers : v.router.congestion with
    | error g =>
      rw [hbuffers] at h
      cases h
      refine ⟨.nothing, fun _ => rfl, ?_⟩
      rw [handling_run]
      dsimp only
      rw [hbuffers]
    | ok c =>
      rw [hbuffers] at h
      obtain ⟨hleaves, hnothing, hagain⟩ := leaves_forward (fun _ => ⟨c, hbuffers⟩) h
      refine ⟨hleaves, hnothing, ?_⟩
      rw [handling_run]
      dsimp only
      rw [hleaves.congestion_eq, hbuffers]
      exact hagain

theorem fst_handling_turnHome {t : Transit} (hdest : t.router.site.checkDestination t.packet.dest = .ok ())
    (haway : t.router.site.group ≠ t.packet.dest.group.toNat) (v : Visit) :
    (v.handling.run t.turnHome).1 = (v.handling.run t).1 := by
  rw [handling_run, handling_run, Transit.congestion_turnHome]
  cases v.seen with
  | some c => exact Transit.fst_forward_turnHome hdest haway v.channel c
  | none =>
    dsimp only
    cases t.router.congestion with
    | error f => rfl
    | ok c => exact Transit.fst_forward_turnHome hdest haway v.channel c

/-- **A refusal leaves no more behind than the decisions that were due.** Where the buffers cannot be looked at, or the
channel or the address is at fault, packet and router are as they were. They are so too where no decision is due;
otherwise the packet may have turned home, or taken its other choice, and is then found so. Of the router only the
counters and the random numbers can have changed, and of the packet only where it heads for and its slots. To present
the packet again gets the same refusal and changes nothing more; and from any channel and with any buffers it gets the
answer that it would have got without the refusal, unless a choice was taken in an adaptive class. -/
theorem refusal_leaves (h : v.handling.run ⟨v.router, k⟩ = (.error f, t')) :
    (¬v.Checks k → t' = ⟨v.router, k⟩) ∧ Transit.Leaves v.IsAdaptive ⟨v.router, k⟩ t' ∧
    t'.router = { v.router with counters := t'.router.counters, random := t'.router.random } ∧
    k.Keeps t'.packet ∧ t'.packet.channel = k.channel ∧
    (Visit.mk t'.router v.channel v.seen).handling.run t' = (.error f, t') ∧
    (¬v.IsAdaptive → ∀ channel seen, ((Visit.mk t'.router channel seen).handling.run t').1 =
      ((Visit.mk v.router channel seen).handling.run ⟨v.router, k⟩).1) := by
  obtain ⟨hleaves, hnothing, hagain⟩ := leaves_handling h
  obtain ⟨hkeeps, hchannel⟩ := hleaves.keeps
  refine ⟨hnothing, hleaves, hleaves.router_eq, hkeeps, hchannel, hagain, fun hadaptive channel seen => ?_⟩
  by_cases hchecks : v.Checks k
  · cases hleaves with
    | nothing => rfl
    | home here away => exact fst_handling_turnHome hchecks.address away ⟨v.router, channel, seen⟩
    | detour adaptive_class => exact absurd adaptive_class hadaptive
  · rw [hnothing hchecks]

/-- **A refusal may leave a trace.** A packet of a class without detours that was diverted nevertheless has no channel
left in the group it was sent through. Its router refuses it, and has drawn a slot and turned it home by then. -/
theorem refusal_not_undone :
    let n := Installation.inTurn
    let v : Visit := ⟨n.newRouter 2 8, 1, none⟩
    let k : Packet := ⟨⟨0, 4, 0, 64⟩, 1, 0, ⟨2, 1, 1, 0, 0⟩, 0, 0⟩
    Router.install n.settings n.table 2 n.parameters.radix 8 = .ok v.router ∧
      ∃ t', v.handling.run ⟨v.router, k⟩ = (.error (.outOfChannels .minimal 2 2), t') ∧
        (k.dest.target = 1 ∧ t'.packet.dest.target = 2) ∧
        (v.router.counters = #[0, 0, 0] ∧ t'.router.counters = #[0, 0, 1]) := by
  intro n v k
  have hrefused : (v.handling.run ⟨v.router, k⟩).1 matches .error (.outOfChannels .minimal 2 2) := by decide +kernel
  have hrun : (v.handling.run ⟨v.router, k⟩).1 = .error (.outOfChannels .minimal 2 2) := by
    split at hrefused
    · next h => exact h
    · cases hrefused
  exact ⟨Router.install_eq n (by decide) (by decide), _, Prod.ext hrun rfl, ⟨rfl, by decide +kernel⟩,
    by decide +kernel, by decide +kernel⟩

/-- The packet is refused again, and found as it was left. -/
theorem refusal_leaves_trace :
    let n := Installation.inTurn
    let v : Visit := ⟨n.newRouter 2 8, 1, none⟩
    let k : Packet := ⟨⟨0, 4, 0, 64⟩, 1, 0, ⟨2, 1, 1, 0, 0⟩, 0, 0⟩
    ∃ f t', v.handling.run ⟨v.router, k⟩ = (.error f, t') ∧ Transit.Leaves v.IsAdaptive ⟨v.router, k⟩ t' ∧
      k.Keeps t'.packet ∧ t'.packet.channel = 1 ∧ t'.packet ≠ k ∧
      (Visit.mk t'.router 1 none).handling.run t' = (.error f, t') := by
  intro n v k
  have hnone : (v.handling.run ⟨v.router, k⟩).1.toOption = none := by decide +kernel
  obtain ⟨f, hf⟩ : ∃ f, (v.handling.run ⟨v.router, k⟩).1 = .error f := by
    cases hrun : (v.handling.run ⟨v.router, k⟩).1 with
    | error f => exact ⟨f, rfl⟩
    | ok egress =>
      rw [hrun] at hnone
      cases hnone
  obtain ⟨-, hleaves, -, hkeeps, hchannel, hagain, -⟩ := refusal_leaves (v := v) (k := k) (Prod.ext hf rfl)
  exact ⟨f, _, Prod.ext hf rfl, hleaves, hkeeps, hchannel, by decide +kernel, hagain⟩

end Visit

end DragonflyFabric
