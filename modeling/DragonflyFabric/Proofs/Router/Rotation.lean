import DragonflyFabric.Proofs.Router.Redirection
import Mathlib.Data.Int.CardIntervalMod

/-!
# Slots in turn

A router that takes the parallel links in turn has one counter for each group. It draws a slot for a packet that
enters, toward its destination; for one that is diverted or is offered a way around, toward the intermediate group;
and for one that turns home. What is drawn by each call, failing ones included, is written down as a list of draws, and
`Router.Drawing` says that a router becomes another by nothing but these. A group sees its own draws only: the first
of them gets slot zero, each gets the slot after the one before it, and after the last slot comes the first again.

* `Router.drawing_work`: what a router goes through in any list of calls is what was written down.
* `Router.Tallies`: the counters tell the draws. It is kept by `Router.Tallies.draw` for one draw and by
  `Router.Tallies.drawing` for any number.
-/

namespace DragonflyFabric

/-- A slot that was drawn toward a group. -/
structure Draw where
  group : Nat
  slot : UInt16

namespace Draw

/-- The slots of the draws toward a group. -/
def slots (ds : List Draw) (group : Nat) : List Nat := (ds.filter (·.group = group)).map (·.slot.toNat)

@[simp] theorem slots_nil (group : Nat) : slots [] group = [] := rfl

theorem slots_cons (d : Draw) (ds : List Draw) (group : Nat) :
    slots (d :: ds) group = if d.group = group then d.slot.toNat :: slots ds group else slots ds group := by
  rw [slots, List.filter_cons]
  simp only [decide_eq_true_eq]
  split <;> rfl

theorem slots_append (ds ds' : List Draw) (group : Nat) :
    slots (ds ++ ds') group = slots ds group ++ slots ds' group := by
  rw [slots, List.filter_append, List.map_append]
  rfl

end Draw

/-- A place whose router takes the links in turn, and has no more of them than sixteen bits number. -/
structure Site.Rotates (s : Site) : Prop where
  policy_eq : s.policy = .roundRobin
  links_pos : 0 < s.parameters.links
  links_le : s.parameters.links ≤ 65536

/-! ### Turning home -/

theorem Site.group_lt_of_checkDestination {s : Site} {dest : Address} (h : s.checkDestination dest = .ok ()) :
    dest.group.toNat < s.parameters.groups := by
  rw [checkDestination] at h
  split at h
  · cases h
  · next hdest =>
    push Not at hdest
    exact hdest.2.1

namespace Transit

variable {t : Transit} (algorithm : Algorithm) (channel : Nat) (c : Congestion)

theorem turnHome_of_here (hhere : t.router.site.group = t.packet.dest.target.toNat) :
    t.turnHome =
      takeSlot { t with packet := { t.packet with dest := { t.packet.dest with target := t.packet.dest.group } } }
        t.packet.dest.group.toNat := if_pos hhere

theorem turnHome_of_elsewhere (helsewhere : t.router.site.group ≠ t.packet.dest.target.toNat) : t.turnHome = t :=
  if_neg helsewhere

theorem router_choosePort_away (haway : t.router.site.group ≠ t.packet.dest.group.toNat) :
    ((choosePort algorithm (t.router.site.stage t.packet) channel c).run t).2.router = t.turnHome.router := by
  rw [choosePort_run]
  rcases Site.stage_away haway with hstage | hstage
  all_goals
    rw [hstage]
    dsimp only
    split <;> rfl

/-- A packet that turns home heads for another group from then on, also if it takes its other choice at once. -/
theorem target_ne_of_here (hhere : t.router.site.group = t.packet.dest.target.toNat)
    (haway : t.router.site.group ≠ t.packet.dest.group.toNat) :
    ((choosePort algorithm (t.router.site.stage t.packet) channel c).run t).2.packet.dest.target ≠
      t.packet.dest.target := by
  have hgroup : t.packet.dest.group ≠ t.packet.dest.target := fun heq => haway (hhere.trans (by rw [heq]))
  rw [choosePort_away haway]
  cases hdecided : t.decided algorithm channel c with
  | error e => rwa [turnHome_of_here hhere]
  | ok k =>
    rw [decided, turnHome_of_here hhere] at hdecided
    split at hdecided
    · next hmay =>
      obtain ⟨-, -, -, -, helsewhere⟩ := Site.of_mayTurn hmay
      rcases Site.adapt_cases hdecided with rfl | rfl
      · exact hgroup
      · exact fun heq => helsewhere (hhere.trans (by rw [← heq]; rfl)).symm
    · cases hdecided
      exact hgroup

end Transit

/-! ### What each call draws -/

namespace Transit

/-- A packet that is not refused is diverted by a draw. -/
def divertDraws (through : Nat) (t : Transit) : List Draw :=
  match (divert through).run t with
  | (.ok _, t') => [⟨through, t'.packet.slot⟩]
  | (.error _, _) => []

/-- The straight way is chosen, and nothing else so far. -/
def goStraight (t : Transit) (destination : Nat) : Transit :=
  let t := t.takeSlot destination
  { t with packet := { t.packet with otherSlot := t.packet.slot } }

@[simp] theorem site_goStraight (t : Transit) (destination : Nat) :
    (t.goStraight destination).router.site = t.router.site := Router.site_chooseSlot _ _ _

theorem choose_eq (algorithm : Algorithm) (destination : Nat) (t : Transit) :
    (choose algorithm destination).run t =
      let t' := t.goStraight destination
      if algorithm = .minimal then (.ok (), t')
      else
        let (through, router) := t'.router.drawIntermediate destination
        let t' := { t' with router := router }
        match through with
        | none => (.ok (), t')
        | some through =>
          if algorithm = .valiant then (divert through).run t' else (.ok (), offer through t') :=
  choose_run algorithm destination t

/-- One draw for the straight way, and one for the way around if there is any. -/
def chooseDraws (algorithm : Algorithm) (destination : Nat) (t : Transit) : List Draw :=
  let t' := t.goStraight destination
  ⟨destination, t'.packet.slot⟩ ::
    if algorithm = .minimal then []
    else
      let (through, router) := t'.router.drawIntermediate destination
      let t' := { t' with router := router }
      match through with
      | none => []
      | some through =>
        if algorithm = .valiant then divertDraws through t' else [⟨through, (offer through t').packet.otherSlot⟩]

end Transit

/-- A packet that turns home draws a slot toward the group of its destination. -/
def Visit.draws (v : Visit) (k : Packet) : List Draw :=
  if v.group = k.dest.target.toNat ∧ (v.pass k).dest.target ≠ k.dest.target then
    [⟨k.dest.group.toNat, (Transit.turnHome ⟨v.router, k⟩).packet.slot⟩]
  else []

namespace Router

/-- The address and the traffic class of a request, where it has both. -/
def accept (r : Router) (q : Request) : Except Fault (Address × TrafficClass) := do
  let dest ← r.site.parameters.locate q.destination
  let c ← r.site.plan.get q.network
  return (dest, c)

/-- Requests within a group draw nothing. -/
def injectDraws (r : Router) (q : Request) : List Draw :=
  match r.accept q with
  | .error _ => []
  | .ok (dest, c) =>
    if dest.group.toNat = r.site.group then []
    else Transit.chooseDraws c.algorithm dest.group.toNat (.enter r q c.start dest)

/-- What can be asked of a router, about any packet; and a change of the buffers it looks at. -/
inductive Call
  | inject (q : Request)
  | divert (k : Packet) (through : Nat)
  | pass (k : Packet) (channel : Nat) (seen : Option Congestion)
  | expose (credits queues : Option Meter)

/-- The router afterwards, whether the call succeeds or fails. -/
def Call.after (r : Router) : Call → Router
  | inject q => (r.inject q).2
  | divert k through => ((Transit.divert through).run ⟨r, k⟩).2.router
  | pass k channel seen => ((Visit.mk r channel seen).handling.run ⟨r, k⟩).2.router
  | expose credits queues => { r with credits := credits, queues := queues }

def Call.draws (r : Router) : Call → List Draw
  | inject q => r.injectDraws q
  | divert k through => Transit.divertDraws through ⟨r, k⟩
  | pass k channel seen => (Visit.mk r channel seen).draws k
  | expose _ _ => []

/-- The router after some calls. -/
def work (r : Router) : List Call → Router
  | [] => r
  | call :: rest => (call.after r).work rest

/-- All that is drawn in some calls. -/
def workDraws (r : Router) : List Call → List Draw
  | [] => []
  | call :: rest => call.draws r ++ (call.after r).workDraws rest

/-! ### Nothing else moves the counters -/

/-- A router becomes another by these draws, one after another, each toward one of the groups. Its random numbers and
what it sees of its buffers may change as well. -/
inductive Drawing : Router → List Draw → Router → Prop
  | refl (r : Router) : Drawing r [] r
  | change {r r₁ r' : Router} {ds : List Draw} (hsite : r₁.site = r.site) (hcounters : r₁.counters = r.counters)
      (h : Drawing r₁ ds r') : Drawing r ds r'
  | draw {r r' : Router} {ds : List Draw} (source : Nat) {group : Nat} (hgroup : group < r.site.parameters.groups)
      (h : Drawing (r.chooseSlot source group).2 ds r') :
      Drawing r (⟨group, (r.chooseSlot source group).1⟩ :: ds) r'

variable {r r' r'' fresh : Router} {ds ds' : List Draw} {source group destination : Nat}

namespace Drawing

theorem single (source : Nat) (hgroup : group < r.site.parameters.groups) :
    r.Drawing [⟨group, (r.chooseSlot source group).1⟩] (r.chooseSlot source group).2 :=
  .draw source hgroup (.refl _)

theorem site_eq (h : r.Drawing ds r') : r'.site = r.site := by
  induction h with
  | refl => rfl
  | change hsite _ _ ih => rw [ih, hsite]
  | draw source _ _ ih => rw [ih, site_chooseSlot]

theorem trans (h : r.Drawing ds r') (h' : r'.Drawing ds' r'') : r.Drawing (ds ++ ds') r'' := by
  induction h with
  | refl => exact h'
  | change hsite hcounters _ ih => exact .change hsite hcounters (ih h')
  | draw source hgroup _ ih => exact .draw source hgroup (ih h')

end Drawing

@[simp] theorem counters_drawIntermediate (r : Router) (destination : Nat) :
    (r.drawIntermediate destination).2.counters = r.counters := by
  rw [router_drawIntermediate]

section Calls

variable {t : Transit}

theorem drawing_divert (through : Nat) (t : Transit) :
    t.router.Drawing (Transit.divertDraws through t) ((Transit.divert through).run t).2.router := by
  by_cases hthrough : through = t.packet.origin.toNat ∨ through = t.packet.dest.group.toNat ∨
      t.router.site.parameters.groups ≤ through
  · rw [Transit.divertDraws, Transit.divert_run, if_pos hthrough]
    exact .refl _
  · rw [Transit.divertDraws, Transit.divert_run, if_neg hthrough]
    push Not at hthrough
    exact .single _ hthrough.2.2

theorem drawing_choose (hhere : t.router.site.group < t.router.site.parameters.groups)
    (hd : destination < t.router.site.parameters.groups) (algorithm : Algorithm) :
    t.router.Drawing (Transit.chooseDraws algorithm destination t)
      ((Transit.choose algorithm destination).run t).2.router := by
  have hkept := t.site_goStraight destination
  have hcases := drawIntermediate_cases (r := (t.goStraight destination).router) (by rwa [hkept]) (hkept.symm ▸ hd)
  have hsite := site_drawIntermediate (t.goStraight destination).router destination
  have hcounters := counters_drawIntermediate (t.goStraight destination).router destination
  rw [Transit.chooseDraws, Transit.choose_eq]
  refine .draw t.packet.request.source hd ?_
  show (t.goStraight destination).router.Drawing _ _
  generalize t.goStraight destination = t' at hcases hsite hcounters ⊢
  dsimp only
  split
  · exact .refl _
  cases hdrawn : t'.router.drawIntermediate destination with
  | mk through router =>
    rw [hdrawn] at hcases hsite hcounters
    refine .change hsite hcounters ?_
    cases through with
    | none => exact .refl _
    | some through =>
      dsimp only
      split
      · exact drawing_divert through ⟨router, t'.packet⟩
      · obtain ⟨hnone, -⟩ | ⟨_, hsome, hlt, -⟩ := hcases
        · cases hnone
        · cases hsome
          exact .single _ (hsite.symm ▸ hlt)

theorem of_accept {q : Request} {dest : Address} {c : TrafficClass} (h : r.accept q = .ok (dest, c)) :
    r.site.parameters.locate q.destination = .ok dest ∧ r.site.plan.get q.network = .ok c := by
  obtain ⟨_, hlocate, h⟩ := ok_of_bind_ok h
  obtain ⟨_, hget, h⟩ := ok_of_bind_ok h
  cases h
  exact ⟨hlocate, hget⟩

theorem inject_eq (r : Router) (q : Request) :
    r.inject q =
      match r.accept q with
      | .error f => (.error f, r)
      | .ok (dest, c) =>
        let t := Transit.enter r q c.start dest
        if dest.group.toNat = r.site.group then (.ok t.packet, r)
        else
          let (result, t) := (Transit.choose c.algorithm dest.group.toNat).run t
          (result.map fun _ => t.packet, t.router) := rfl

/-- No packet is made for a host that there is not. -/
theorem destination_lt_of_inject {q : Request} {k : Packet} (h : (r.inject q).1 = .ok k) :
    q.destination < r.site.parameters.hostCount := by
  rw [inject_eq] at h
  cases haccept : r.accept q with
  | error f =>
    rw [haccept] at h
    cases h
  | ok accepted => exact Parameters.lt_of_locate (of_accept haccept).1

theorem drawing_inject (hhere : r.site.group < r.site.parameters.groups) (q : Request) :
    r.Drawing (r.injectDraws q) (r.inject q).2 := by
  rw [inject_eq, injectDraws]
  cases haccept : r.accept q with
  | error f => exact .refl r
  | ok accepted =>
    obtain ⟨dest, c⟩ := accepted
    have hdest := Parameters.group_lt_of_locate (of_accept haccept).1
    dsimp only
    split
    · exact .refl r
    · exact drawing_choose (t := .enter r q c.start dest) hhere hdest c.algorithm

theorem drawing_pass (v : Visit) (k : Packet) :
    v.router.Drawing (v.draws k) (v.handling.run ⟨v.router, k⟩).2.router := by
  -- In the group that a packet heads for, another target means that it has turned home.
  let I (t : Transit) : Prop :=
    v.router.Drawing
      (if v.group = k.dest.target.toNat ∧ t.packet.dest.target ≠ k.dest.target then
        [⟨k.dest.group.toNat, (Transit.turnHome ⟨v.router, k⟩).packet.slot⟩]
      else []) t.router
  have hstart : I ⟨v.router, k⟩ := by
    show Drawing _ (ite _ _ _) _
    rw [if_neg fun h => h.2 rfl]
    exact .refl _
  have hforward : ∀ c, I ((Transit.forward v.channel c).run ⟨v.router, k⟩).2 := by
    intro c
    refine Transit.kept_of_forward (I := I) hstart (fun network traffic _ hdest => ?_) fun t next h => h
    by_cases hwithin : v.group = k.dest.group.toNat
    · rwa [Transit.choosePort_within (t := ⟨v.router, k⟩) hwithin]
    show Drawing _ (ite _ _ _) _
    rw [Transit.router_choosePort_away (t := ⟨v.router, k⟩) _ _ _ hwithin]
    by_cases hhere : v.group = k.dest.target.toNat
    · rw [if_pos ⟨hhere, Transit.target_ne_of_here (t := ⟨v.router, k⟩) _ _ _ hhere hwithin⟩,
        Transit.turnHome_of_here (t := ⟨v.router, k⟩) hhere]
      exact .single _ (Site.group_lt_of_checkDestination hdest)
    · rw [if_neg fun h => hhere h.1, Transit.turnHome_of_elsewhere (t := ⟨v.router, k⟩) hhere]
      exact .refl _
  show I (v.handling.run ⟨v.router, k⟩).2
  rw [Visit.handling]
  split
  · exact hforward _
  · exact Transit.kept_of_forwardSeen (I := I) hstart hforward

theorem drawing_call (hhere : r.site.group < r.site.parameters.groups) (call : Call) :
    r.Drawing (call.draws r) (call.after r) := by
  cases call with
  | inject q => exact drawing_inject hhere q
  | divert k through => exact drawing_divert through ⟨r, k⟩
  | pass k channel seen => exact drawing_pass ⟨r, channel, seen⟩ k
  | expose credits queues =>
    have hsite : (Call.after r (.expose credits queues)).site = r.site := rfl
    exact .change hsite rfl (.refl _)

end Calls

/-- What a router goes through in any calls is what they draw. -/
theorem drawing_work (hhere : r.site.group < r.site.parameters.groups) (calls : List Call) :
    r.Drawing (r.workDraws calls) (r.work calls) := by
  induction calls generalizing r with
  | nil => exact .refl r
  | cons call rest ih =>
    have hcall := drawing_call hhere call
    exact hcall.trans (ih (by rwa [hcall.site_eq]))

/-! ### What the counters tell -/

/-- The counters of a router that has drawn these slots. Each stands at the number of draws toward its group, up to full
rounds of the links, and each draw got the slot at which the counter stood. -/
structure Tallies (ds : List Draw) (r : Router) : Prop where
  size_eq : r.counters.size = r.site.parameters.groups
  counter_eq : ∀ group < r.site.parameters.groups,
    r.counters[group]? = some ((Draw.slots ds group).length % r.site.parameters.links)
  slots_eq : ∀ group,
    Draw.slots ds group = (List.range (Draw.slots ds group).length).map (· % r.site.parameters.links)

/-- A slot in turn is the counter of its group. -/
theorem chooseSlot_of_counter (hpolicy : r.site.policy = .roundRobin) {counter : Nat}
    (hcounter : r.counters[group]? = some counter) :
    r.chooseSlot source group =
      (UInt16.ofNat counter,
        { r with counters := r.counters.setIfInBounds group ((counter + 1) % r.site.parameters.links) }) := by
  rw [chooseSlot, hpolicy]
  dsimp only
  rw [hcounter]

namespace Tallies

theorem draw (h : r.Tallies ds) (hrotates : r.site.Rotates) (source : Nat) (hgroup : group < r.site.parameters.groups) :
    (r.chooseSlot source group).1.toNat = (Draw.slots ds group).length % r.site.parameters.links ∧
      (r.chooseSlot source group).2.Tallies (ds ++ [⟨group, (r.chooseSlot source group).1⟩]) := by
  have hcounter := h.counter_eq group hgroup
  have hlt := Nat.mod_lt (Draw.slots ds group).length hrotates.links_pos
  have hslot : (r.chooseSlot source group).1.toNat = (Draw.slots ds group).length % r.site.parameters.links := by
    rw [chooseSlot_of_counter hrotates.policy_eq hcounter]
    exact UInt16.toNat_ofNat_of_lt' (Nat.lt_of_lt_of_le hlt hrotates.links_le)
  refine ⟨hslot, ?_, fun other hother => ?_, fun other => ?_⟩
  -- The counter and the slots of the group go on by one, those of the others stay.
  · rw [site_chooseSlot, chooseSlot_of_counter hrotates.policy_eq hcounter, ← h.size_eq]
    exact Array.size_setIfInBounds
  · rw [site_chooseSlot] at hother ⊢
    rw [Draw.slots_append, Draw.slots_cons, hslot, chooseSlot_of_counter hrotates.policy_eq hcounter]
    by_cases heq : group = other
    · subst heq
      rw [Array.getElem?_setIfInBounds_self_of_lt (h.size_eq.symm ▸ hgroup), if_pos rfl, List.length_append,
        Nat.mod_add_mod]
      rfl
    · rw [Array.getElem?_setIfInBounds_ne heq, if_neg heq, Draw.slots_nil, List.append_nil, h.counter_eq other hother]
  · rw [site_chooseSlot, Draw.slots_append, Draw.slots_cons, hslot]
    by_cases heq : group = other
    · subst heq
      rw [if_pos rfl, Draw.slots_nil, List.length_append, List.length_singleton, List.range_succ, List.map_append,
        ← h.slots_eq]
      rfl
    · rw [if_neg heq, Draw.slots_nil, List.append_nil]
      exact h.slots_eq other

theorem drawing (h : r.Tallies ds) (hrotates : r.site.Rotates) (hdrawing : r.Drawing ds' r') :
    r'.Tallies (ds ++ ds') := by
  induction hdrawing generalizing ds with
  | refl => rwa [List.append_nil]
  | change hsite hcounters _ ih =>
    refine ih ⟨?_, ?_, ?_⟩ (hsite.symm ▸ hrotates)
    all_goals rw [hsite]
    · rw [hcounters]
      exact h.size_eq
    · rw [hcounters]
      exact h.counter_eq
    · exact h.slots_eq
  | draw source hgroup _ ih =>
    obtain ⟨-, hdraw⟩ := h.draw hrotates source hgroup
    have hrest := ih hdraw (by rwa [site_chooseSlot])
    rwa [List.append_assoc] at hrest

end Tallies

/-- A new router at a place of a network that takes the links in turn: nothing has been drawn. -/
structure AtStart (p : Parameters) (index : Nat) (r : Router) : Prop where
  parameters_eq : r.site.parameters = p
  group_eq : r.site.group = p.groupOf index
  group_lt : r.site.group < r.site.parameters.groups
  rotates : r.site.Rotates
  tallies : r.Tallies []

theorem atStart_of_install {settings : Settings} {table : ExitTable.View} {index ports channels : Nat}
    (hinstall : install settings table index ports channels = .ok fresh) (hpolicy : settings.policy = .roundRobin)
    (hlinks : 0 < settings.parameters.links) (hfew : settings.parameters.links ≤ 65536) :
    fresh.AtStart settings.parameters index := by
  obtain ⟨plan, -, -, hindex, rfl⟩ := eq_of_install hinstall
  refine ⟨rfl, rfl, Parameters.groupOf_lt hindex, ⟨hpolicy, hlinks, hfew⟩, Array.size_replicate,
    fun group hgroup => ?_, fun group => rfl⟩
  rw [Array.getElem?_replicate, if_pos hgroup]
  exact congrArg some (Nat.zero_mod _).symm

/-! ### Every link in turn -/

/-- How often a slot comes up among the first draws. -/
theorem count_turns {links slot : Nat} (hslot : slot < links) (n : Nat) :
    ((List.range n).map (· % links)).count slot = n / links + if slot < n % links then 1 else 0 := by
  have hcount : ((List.range n).map (· % links)).count slot = n.count (· ≡ slot [MOD links]) := by
    induction n with
    | zero => rfl
    | succ n ih =>
      rw [List.range_succ, List.map_append, List.count_append, ih, Nat.count_succ]
      simp only [List.map_cons, List.map_nil, List.count_singleton, Nat.ModEq, Nat.mod_eq_of_lt hslot, beq_iff_eq]
  rw [hcount, Nat.count_modEq_card n (Nat.zero_lt_of_lt hslot), Nat.mod_eq_of_lt hslot]

namespace Tallies

variable (h : r.Tallies ds)

include h

theorem slot_eq {j slot : Nat} (hslot : (Draw.slots ds group)[j]? = some slot) :
    slot = j % r.site.parameters.links := by
  rw [h.slots_eq, List.getElem?_map, Option.map_eq_some_iff] at hslot
  obtain ⟨i, hi, rfl⟩ := hslot
  obtain ⟨hlt, heq⟩ := List.getElem?_eq_some_iff.mp hi
  rw [← heq, List.getElem_range]

theorem count_le {slot other : Nat} (hslot : slot < r.site.parameters.links) (hother : other < r.site.parameters.links)
    (group : Nat) : (Draw.slots ds group).count slot ≤ (Draw.slots ds group).count other + 1 := by
  rw [h.slots_eq, count_turns hslot, count_turns hother]
  split <;> omega

theorem counter_lt (hlinks : 0 < r.site.parameters.links) {counter : Nat} (hcounter : counter ∈ r.counters) :
    counter < r.site.parameters.links := by
  obtain ⟨group, hgroup, rfl⟩ := Array.mem_iff_getElem.mp hcounter
  have heq := h.counter_eq group (h.size_eq ▸ hgroup)
  rw [Array.getElem?_eq_getElem hgroup] at heq
  rw [Option.some.inj heq]
  exact Nat.mod_lt _ hlinks

end Tallies

/-- **Slots are drawn in turn toward each group.** Whatever is asked of a router from its installation on, the draws
toward a group get the slots one after another, from zero on and from zero again after the last one; draws toward other
groups do not matter. So each slot comes up as often as any other, give or take one, and no counter leaves the slots. -/
theorem slots_in_turn {settings : Settings} {table : ExitTable.View} {index ports channels : Nat}
    (hinstall : install settings table index ports channels = .ok fresh) (hpolicy : settings.policy = .roundRobin)
    (hlinks : 0 < settings.parameters.links) (hfew : settings.parameters.links ≤ 65536) (calls : List Call) :
    fresh.Drawing (fresh.workDraws calls) (fresh.work calls) ∧
    (∀ group j slot, (Draw.slots (fresh.workDraws calls) group)[j]? = some slot →
      slot = j % settings.parameters.links) ∧
    (∀ group, ∀ slot < settings.parameters.links, ∀ other < settings.parameters.links,
      (Draw.slots (fresh.workDraws calls) group).count slot ≤
        (Draw.slots (fresh.workDraws calls) group).count other + 1) ∧
    ∀ counter ∈ (fresh.work calls).counters, counter < settings.parameters.links := by
  have hfresh := atStart_of_install hinstall hpolicy hlinks hfew
  have hdrawing := drawing_work hfresh.group_lt calls
  have htallies := hfresh.tallies.drawing hfresh.rotates hdrawing
  rw [List.nil_append] at htallies
  rw [← hfresh.parameters_eq, ← hdrawing.site_eq]
  exact ⟨hdrawing, fun group j slot hslot => htallies.slot_eq hslot,
    fun group slot hslot other hother => htallies.count_le hslot hother group,
    fun counter hcounter => htallies.counter_lt (hdrawing.site_eq ▸ hfresh.rotates.links_pos) hcounter⟩

end Router

/-- Three groups of two routers with a host each, and two links between every two groups, taken in turn. -/
def Installation.inTurn : Installation where
  settings :=
    { parameters := ⟨1, 2, 2, 3, 2⟩
      networks := 3
      algorithms := [.minimal, .valiant, .adaptive]
      threshold := 2.0
      linkMap := ⟨#[0, 1, 2, 3]⟩
      numbering := .relative
      policy := .roundRobin
      seed := 0 }
  table := ⟨some ⟨⟨#[some ⟨0, 2⟩, some ⟨1, 2⟩, some ⟨0, 3⟩, some ⟨1, 3⟩], 2⟩⟩, 2, 2⟩
  fabric :=
    .ofParts ⟨1, 2, 2, 3, 2⟩ .relative
      ⟨some ⟨⟨#[some ⟨0, 2⟩, some ⟨1, 2⟩, some ⟨0, 3⟩, some ⟨1, 3⟩], 2⟩⟩, 2, 2⟩ ⟨#[0, 1, 2, 3]⟩
  plan := ⟨#[⟨0, 2, .minimal⟩, ⟨2, 3, .valiant⟩, ⟨5, 3, .adaptive⟩]⟩
  read :=
    ⟨.object "Dragonfly" [("hosts_per_router", .number 1), ("routers_per_group", .number 2),
        ("intergroup_per_router", .number 2), ("num_groups", .number 3), ("intergroup_links", .number 2),
        ("algorithm", .array [.literal "minimal", .literal "valiant", .literal "adaptive-local"]),
        ("link_slot_policy", .object "RoundRobin" [])],
      ok_of_toOption (by decide +kernel)⟩
  table_eq := ok_of_toOption (by decide +kernel)
  fabric_eq := ok_of_toOption (by decide +kernel)
  plan_eq := ok_of_toOption (by decide +kernel)

/-- Two draws toward the second group with one toward the third between them, a request for a host that there is not,
and the turn home of a packet from the third group, which gets the first link again. -/
theorem Router.slots_in_turn_sample :
    let n := Installation.inTurn
    let fresh := n.newRouter 0 8
    let calls : List Router.Call :=
      [.inject ⟨0, 2, 0, 64⟩, .inject ⟨0, 4, 0, 64⟩, .divert ⟨⟨0, 4, 1, 64⟩, 2, 0, ⟨2, 2, 2, 0, 0⟩, 0, 0⟩ 1,
        .inject ⟨0, 6, 0, 64⟩, .pass ⟨⟨4, 2, 1, 64⟩, 3, 2, ⟨1, 0, 0, 0, 0⟩, 0, 0⟩ 3 none]
    Router.install n.settings n.table 0 n.parameters.radix 8 = .ok fresh ∧ n.settings.policy = .roundRobin ∧
      (0 < n.parameters.links ∧ n.parameters.links ≤ 65536) ∧
      Draw.slots (fresh.workDraws calls) 1 = [0, 1, 0] ∧ Draw.slots (fresh.workDraws calls) 2 = [0] ∧
      fresh.Drawing (fresh.workDraws calls) (fresh.work calls) ∧
      ∀ counter ∈ (fresh.work calls).counters, counter < 2 := by
  intro n fresh calls
  have hinstall : Router.install n.settings n.table 0 n.parameters.radix 8 = .ok fresh :=
    Router.install_eq n (by decide) (by decide)
  obtain ⟨hdrawing, -, -, hcounters⟩ := Router.slots_in_turn hinstall rfl (by decide) (by decide) calls
  exact ⟨hinstall, rfl, ⟨by decide, by decide⟩, by decide +kernel, by decide +kernel, hdrawing, hcounters⟩

end DragonflyFabric
