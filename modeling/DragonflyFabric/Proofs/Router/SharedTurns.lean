import DragonflyFabric.Proofs.Router.Entry
import DragonflyFabric.Proofs.Router.Rotation

/-!
# Turns shared by destinations and intermediate groups

A router that takes the links in turn has one counter for each group, and draws from it for packets to the group and
for packets through the group alike. A packet shows what was drawn for it when it entered (`inject_shown`), so that the
slot of its straight way can be told from the packets before it: up to full rounds of the links, it is the number of
those that go to the same group or were given it as intermediate group (`slot_of_injected`).

Packets through a group take turns away from packets to that group. Where there are none, the straight ways are in turn
by themselves, and two routers give the same slots to the same destinations, whatever their algorithms are and whatever
other groups they choose.
-/

namespace DragonflyFabric

variable {fresh r r' : Router} {ds : List Draw} {d : Draw} {q : Request} {dest : Address} {c : TrafficClass}
  {algorithm : Algorithm} {index : Nat}

/-! ### What a packet shows of its draws -/

namespace Packet

/-- The slot of the straight way, which a packet that was sent through another group keeps as its other choice. -/
def straightSlot (algorithm : Algorithm) (k : Packet) : UInt16 :=
  if algorithm = .valiant then k.otherSlot else k.slot

/-- The slot toward the intermediate group. -/
def aroundSlot (algorithm : Algorithm) (k : Packet) : UInt16 :=
  if algorithm = .valiant then k.slot else k.otherSlot

/-- The draws for a packet that has just entered and goes to another group. -/
def shown (algorithm : Algorithm) (k : Packet) : List Draw :=
  ⟨k.dest.group.toNat, k.straightSlot algorithm⟩ ::
    if k.dest.alternate = k.dest.group then [] else [⟨k.dest.alternate.toNat, k.aroundSlot algorithm⟩]

/-- How many of some packets go to a group or were given it as intermediate group. -/
def countUsing (group : UInt32) (ks : List Packet) : Nat :=
  ks.countP fun k => k.dest.group = group ∨ k.dest.alternate = group

/-- How many of some packets go to a group. -/
def countToward (group : UInt32) (ks : List Packet) : Nat := ks.countP fun k => k.dest.group = group

/-- None of the packets was given a group as intermediate group. -/
def Avoid (group : UInt32) (ks : List Packet) : Prop :=
  ∀ k ∈ ks, k.dest.alternate = group → k.dest.group = group

theorem shown_of_straight {k : Packet} (h : k.dest.alternate = k.dest.group) :
    k.shown algorithm = [⟨k.dest.group.toNat, k.straightSlot algorithm⟩] := by
  rw [shown, if_pos h]

theorem shown_of_around {k : Packet} (h : k.dest.alternate ≠ k.dest.group) :
    k.shown algorithm =
      [⟨k.dest.group.toNat, k.straightSlot algorithm⟩, ⟨k.dest.alternate.toNat, k.aroundSlot algorithm⟩] := by
  rw [shown, if_neg h]

theorem length_slots_shown (algorithm : Algorithm) (group : UInt32) (k : Packet) :
    (Draw.slots (k.shown algorithm) group.toNat).length = countUsing group [k] := by
  rw [shown, Draw.slots_cons, countUsing, List.countP_singleton]
  by_cases hnone : k.dest.alternate = k.dest.group
  · by_cases hgroup : k.dest.group = group <;> simp [hnone, hgroup, UInt32.toNat_inj]
  · rw [if_neg hnone, Draw.slots_cons]
    by_cases hgroup : k.dest.group = group
    · subst hgroup
      simp [hnone, UInt32.toNat_inj]
    · by_cases halternate : k.dest.alternate = group <;> simp [hgroup, halternate, UInt32.toNat_inj]

theorem countUsing_append (group : UInt32) (ks ks' : List Packet) :
    countUsing group (ks ++ ks') = countUsing group ks + countUsing group ks' := List.countP_append

theorem countUsing_of_avoid {group : UInt32} {ks : List Packet} (h : Avoid group ks) :
    countUsing group ks = countToward group ks := by
  refine List.countP_congr fun k hk => ?_
  simp only [decide_eq_true_eq]
  exact ⟨fun hor => hor.elim id (h k hk), .inl⟩

/-- How many packets go to a group can be told from the hosts they go to. -/
theorem countToward_eq {p : Parameters} {ks : List Packet}
    (h : ∀ k ∈ ks, ∃ dest, p.locate k.request.destination = .ok dest ∧ k.dest.group = dest.group) (group : UInt32) :
    countToward group ks = (ks.map (·.request.destination)).countP
      fun number => (p.locate number).toOption.map (·.group) = some group := by
  rw [countToward, List.countP_map]
  refine List.countP_congr fun k hk => ?_
  obtain ⟨dest, hlocate, hgroup⟩ := h k hk
  simp [hlocate, hgroup, Except.toOption]

end Packet

namespace Transit

variable {t : Transit}

/-- The choices for a packet always succeed, and it shows them. -/
theorem choose_shown (hgroups : t.router.site.parameters.groups ≤ 2 ^ 32)
    (hhere : t.router.site.group < t.router.site.parameters.groups)
    (hd : t.packet.dest.group.toNat < t.router.site.parameters.groups)
    (horigin : t.packet.origin = UInt32.ofNat t.router.site.group)
    (halternate : t.packet.dest.alternate = t.packet.dest.group) (algorithm : Algorithm) :
    ∃ t', (choose algorithm t.packet.dest.group.toNat).run t = (.ok (), t') ∧
      t'.packet.request = t.packet.request ∧ t'.packet.dest.group = t.packet.dest.group ∧
      chooseDraws algorithm t.packet.dest.group.toNat t = t'.packet.shown algorithm := by
  obtain ⟨router, slot, hstraight, hkept⟩ : ∃ router slot, t.goStraight t.packet.dest.group.toNat =
      ⟨router, { t.packet with slot := slot, otherSlot := slot }⟩ ∧ router.site = t.router.site :=
    ⟨_, _, rfl, t.site_goStraight _⟩
  have hcases := Router.drawIntermediate_cases (r := router) (by rwa [hkept]) (hkept.symm ▸ hd)
  have hsite := router.site_drawIntermediate t.packet.dest.group.toNat
  rw [hkept] at hcases hsite
  rw [choose_eq, chooseDraws, hstraight]
  dsimp only
  by_cases hminimal : algorithm = .minimal
  · rw [if_pos hminimal, if_pos hminimal]
    refine ⟨_, rfl, rfl, rfl, ?_⟩
    rw [Packet.shown_of_straight (by exact halternate), Packet.straightSlot, ite_self]
  rw [if_neg hminimal, if_neg hminimal]
  cases hdrawn : router.drawIntermediate t.packet.dest.group.toNat with
  | mk through router' =>
    rw [hdrawn] at hcases hsite
    dsimp only at hcases hsite ⊢
    obtain ⟨rfl, -⟩ | ⟨through, rfl, hlt, hsource, hdest⟩ := hcases
    · refine ⟨_, rfl, rfl, rfl, ?_⟩
      rw [Packet.shown_of_straight (by exact halternate), Packet.straightSlot, ite_self]
    have hto : (UInt32.ofNat through).toNat = through := UInt32.toNat_ofNat_of_lt' (Nat.lt_of_lt_of_le hlt hgroups)
    have hne : UInt32.ofNat through ≠ t.packet.dest.group := fun heq => hdest (by rw [← heq, hto])
    cases algorithm with
    | minimal => exact absurd rfl hminimal
    | valiant =>
      have hthrough : ¬(through = t.packet.origin.toNat ∨ through = t.packet.dest.group.toNat ∨
          router'.site.parameters.groups ≤ through) := by
        rw [horigin, UInt32.toNat_ofNat_of_lt' (Nat.lt_of_lt_of_le hhere hgroups), hsite]
        omega
      dsimp only
      rw [if_pos rfl, if_pos rfl, divertDraws, divert_run, if_neg (by exact hthrough)]
      refine ⟨_, rfl, rfl, rfl, ?_⟩
      rw [Packet.shown_of_around (by exact hne)]
      simp only [takeSlot, hto]
      rfl
    | adaptive =>
      dsimp only
      rw [if_neg (by decide), if_neg (by decide)]
      refine ⟨_, rfl, rfl, rfl, ?_⟩
      rw [Packet.shown_of_around (by exact hne)]
      simp only [offer, hto]
      rfl

end Transit

/-! ### Requests one after another -/

namespace Router

/-- The packets that some requests become, one after another. Requests that are refused become none. -/
def injected (r : Router) : List Request → List Packet
  | [] => []
  | q :: rest =>
    match (r.inject q).1 with
    | .ok k => k :: (r.inject q).2.injected rest
    | .error _ => (r.inject q).2.injected rest

theorem accept_of_site_eq (h : r'.site = r.site) (q : Request) : r'.accept q = r.accept q := by
  rw [accept, accept, h]

theorem inject_of_accept_error {f : Fault} (h : r.accept q = .error f) : r.inject q = (.error f, r) := by
  rw [inject_eq, h]

/-- A packet that was just made of a request shows all that was drawn for it. -/
structure Shows (r : Router) (q : Request) (c : TrafficClass) (k : Packet) : Prop where
  request_eq : k.request = q
  within : k.dest.group.toNat = r.site.group → k.dest.alternate = k.dest.group
  draws_eq : r.injectDraws q = if k.dest.group.toNat = r.site.group then [] else k.shown c.algorithm

/-- A request with an address and a traffic class is accepted. -/
theorem inject_shown (hgroups : r.site.parameters.groups ≤ 2 ^ 32) (hhere : r.site.group < r.site.parameters.groups)
    (haccept : r.accept q = .ok (dest, c)) :
    ∃ k, (r.inject q).1 = .ok k ∧ k.dest.group = dest.group ∧ r.Shows q c k := by
  obtain ⟨hlocate, -⟩ := of_accept haccept
  have hd := Parameters.group_lt_of_locate hlocate
  obtain ⟨-, halternate⟩ := Parameters.straight_of_locate hlocate
  have hdraws : r.injectDraws q =
      if dest.group.toNat = r.site.group then []
      else Transit.chooseDraws c.algorithm dest.group.toNat (.enter r q c.start dest) := by
    rw [injectDraws, haccept]
  rw [inject_eq, haccept]
  dsimp only
  by_cases hwithin : dest.group.toNat = r.site.group
  · rw [if_pos hwithin] at hdraws ⊢
    exact ⟨_, rfl, rfl, rfl, fun _ => halternate, hdraws.trans (if_pos hwithin).symm⟩
  rw [if_neg hwithin] at hdraws ⊢
  obtain ⟨t', hrun, hrequest, hgroup, hshown⟩ :=
    Transit.choose_shown (t := .enter r q c.start dest) hgroups hhere hd rfl halternate c.algorithm
  have hrun : (Transit.choose c.algorithm dest.group.toNat).run (.enter r q c.start dest) = (.ok (), t') := hrun
  have haway : t'.packet.dest.group.toNat ≠ r.site.group := by rwa [hgroup]
  rw [hrun]
  refine ⟨t'.packet, rfl, hgroup, hrequest, fun hlocal => absurd hlocal haway, ?_⟩
  rw [if_neg haway, hdraws]
  exact hshown

theorem injected_of_refused {f : Fault} (haccept : r.accept q = .error f) (rest : List Request) :
    r.injected (q :: rest) = r.injected rest := by
  rw [injected, inject_of_accept_error haccept]

theorem exists_injected_cons (hgroups : r.site.parameters.groups ≤ 2 ^ 32)
    (hhere : r.site.group < r.site.parameters.groups) (haccept : r.accept q = .ok (dest, c)) (rest : List Request) :
    ∃ k, r.injected (q :: rest) = k :: (r.inject q).2.injected rest ∧ k.dest.group = dest.group ∧ r.Shows q c k := by
  obtain ⟨k, hk, hgroup, hshows⟩ := inject_shown hgroups hhere haccept
  exact ⟨k, by rw [injected, hk], hgroup, hshows⟩

/-- Toward another group than that of the router, a request draws what its packet says. -/
theorem Shows.length_slots {k : Packet} (h : r.Shows q c k) {group : UInt32} (haway : group.toNat ≠ r.site.group) :
    (Draw.slots (r.injectDraws q) group.toNat).length = Packet.countUsing group [k] := by
  rw [h.draws_eq]
  by_cases hwithin : k.dest.group.toNat = r.site.group
  · have hne : k.dest.group ≠ group := fun heq => haway (by rw [← heq, hwithin])
    rw [if_pos hwithin, Packet.countUsing, List.countP_singleton, h.within hwithin, if_neg (by simpa using hne)]
    rfl
  · rw [if_neg hwithin, Packet.length_slots_shown]

/-- The first of some draws gets the slot that the number of draws before it says. -/
theorem Tallies.slot_of_first (h : r.Tallies ds) (hrotates : r.site.Rotates) {rest : List Draw}
    (hdrawing : r.Drawing (d :: rest) r') :
    d.slot.toNat = (Draw.slots ds d.group).length % r.site.parameters.links := by
  have hfirst : (Draw.slots (ds ++ d :: rest) d.group)[(Draw.slots ds d.group).length]? = some d.slot.toNat := by
    rw [Draw.slots_append, Draw.slots_cons, if_pos rfl, List.getElem?_append_right (Nat.le_refl _), Nat.sub_self]
    rfl
  rw [← hdrawing.site_eq]
  exact (h.drawing hrotates hdrawing).slot_eq hfirst

section Injected

variable (hgroups : r.site.parameters.groups ≤ 2 ^ 32) (hhere : r.site.group < r.site.parameters.groups)

include hgroups hhere

/-- The slot of the straight way counts the draws so far, and the packets before that use the group. -/
theorem slot_of_injected (h : r.Tallies ds) (hrotates : r.site.Rotates) {qs : List Request} {i : Nat} {k : Packet}
    (hk : (r.injected qs)[i]? = some k) (haway : k.dest.group.toNat ≠ r.site.group) :
    ∃ c, r.site.plan.get k.request.network = .ok c ∧
      (k.straightSlot c.algorithm).toNat =
        ((Draw.slots ds k.dest.group.toNat).length + Packet.countUsing k.dest.group ((r.injected qs).take i)) %
          r.site.parameters.links := by
  -- Induction on the requests, over any draws so far, which those of the first request join.
  induction qs generalizing r ds i with
  | nil => cases hk
  | cons q rest ih =>
    cases haccept : r.accept q with
    | error f =>
      rw [injected_of_refused haccept] at hk ⊢
      exact ih hgroups hhere h hrotates hk haway
    | ok accepted =>
      obtain ⟨dest, c⟩ := accepted
      obtain ⟨first, hfirst, -, hshows⟩ := exists_injected_cons hgroups hhere haccept rest
      have hdrawing := drawing_inject hhere q
      rw [hfirst] at hk ⊢
      cases i with
      | zero =>
        cases hk
        rw [hshows.draws_eq, if_neg haway, Packet.shown] at hdrawing
        exact ⟨c, hshows.request_eq ▸ (of_accept haccept).2, h.slot_of_first hrotates hdrawing⟩
      | succ i =>
        have hsite := hdrawing.site_eq
        obtain ⟨c', hget, hslot⟩ := ih (hsite.symm ▸ hgroups) (hsite.symm ▸ hhere) (h.drawing hrotates hdrawing)
          (hsite.symm ▸ hrotates) hk (hsite.symm ▸ haway)
        rw [hsite] at hget hslot
        refine ⟨c', hget, ?_⟩
        rw [hslot, Draw.slots_append, List.length_append, hshows.length_slots haway, Nat.add_assoc,
          ← Packet.countUsing_append]
        rfl

/-- A packet goes to the group of the host that was asked for. -/
theorem locate_of_mem_injected {qs : List Request} {k : Packet} (hk : k ∈ r.injected qs) :
    ∃ dest, r.site.parameters.locate k.request.destination = .ok dest ∧ k.dest.group = dest.group := by
  induction qs generalizing r with
  | nil => cases hk
  | cons q rest ih =>
    cases haccept : r.accept q with
    | error f =>
      rw [injected_of_refused haccept] at hk
      exact ih hgroups hhere hk
    | ok accepted =>
      obtain ⟨dest, c⟩ := accepted
      obtain ⟨first, hfirst, hgroup, hshows⟩ := exists_injected_cons hgroups hhere haccept rest
      have hsite := (drawing_inject hhere q).site_eq
      rw [hfirst] at hk
      rcases List.mem_cons.mp hk with rfl | hk
      · exact ⟨dest, hshows.request_eq ▸ (of_accept haccept).1, hgroup⟩
      · have hlater := ih (hsite.symm ▸ hgroups) (hsite.symm ▸ hhere) hk
        rwa [hsite] at hlater

end Injected

namespace AtStart

variable {p : Parameters} {qs qs' : List Request} {i : Nat} {k k' : Packet} (h : r.AtStart p index)
  (hgroups : p.groups ≤ 2 ^ 32)

include h hgroups

theorem straight_slot (hk : (r.injected qs)[i]? = some k) (haway : k.dest.group.toNat ≠ r.site.group) :
    ∃ c, r.site.plan.get k.request.network = .ok c ∧
      (k.straightSlot c.algorithm).toNat = Packet.countUsing k.dest.group ((r.injected qs).take i) % p.links ∧
      (Packet.Avoid k.dest.group ((r.injected qs).take i) →
        (k.straightSlot c.algorithm).toNat = Packet.countToward k.dest.group ((r.injected qs).take i) % p.links) := by
  obtain ⟨c, hget, hslot⟩ := slot_of_injected (h.parameters_eq.symm ▸ hgroups) h.group_lt h.tallies h.rotates hk haway
  rw [Draw.slots_nil, List.length_nil, Nat.zero_add, h.parameters_eq] at hslot
  exact ⟨c, hget, hslot, fun havoid => by rw [hslot, Packet.countUsing_of_avoid havoid]⟩

theorem locate_of_mem (hk : k ∈ r.injected qs) :
    ∃ dest, p.locate k.request.destination = .ok dest ∧ k.dest.group = dest.group := by
  rw [← h.parameters_eq] at hgroups ⊢
  exact locate_of_mem_injected hgroups h.group_lt hk

theorem same_slot (h' : r'.AtStart p index)
    (hsame : (r.injected qs).map (·.request.destination) = (r'.injected qs').map (·.request.destination))
    (hk : (r.injected qs)[i]? = some k) (hk' : (r'.injected qs')[i]? = some k')
    (haway : k.dest.group.toNat ≠ r.site.group) (havoid : Packet.Avoid k.dest.group ((r.injected qs).take i))
    (havoid' : Packet.Avoid k.dest.group ((r'.injected qs').take i)) :
    ∃ c c', r.site.plan.get k.request.network = .ok c ∧ r'.site.plan.get k'.request.network = .ok c' ∧
      k.straightSlot c.algorithm = k'.straightSlot c'.algorithm := by
  have hgroup : k'.dest.group = k.dest.group := by
    have hdestination : some k.request.destination = some k'.request.destination := by
      have hi := congrArg (·[i]?) hsame
      simpa only [List.getElem?_map, hk, hk', Option.map_some] using hi
    obtain ⟨dest, hlocate, hdest⟩ := h.locate_of_mem hgroups (List.mem_of_getElem? hk)
    obtain ⟨dest', hlocate', hdest'⟩ := h'.locate_of_mem hgroups (List.mem_of_getElem? hk')
    rw [← Option.some.inj hdestination, hlocate] at hlocate'
    cases hlocate'
    rw [hdest, hdest']
  have hcount : Packet.countToward k.dest.group ((r.injected qs).take i) =
      Packet.countToward k.dest.group ((r'.injected qs').take i) := by
    rw [Packet.countToward_eq fun k hk => h.locate_of_mem hgroups (List.mem_of_mem_take hk),
      Packet.countToward_eq fun k hk => h'.locate_of_mem hgroups (List.mem_of_mem_take hk), List.map_take,
      List.map_take, hsame]
  obtain ⟨c, hget, -, hslot⟩ := h.straight_slot hgroups hk haway
  obtain ⟨c', hget', -, hslot'⟩ := h'.straight_slot hgroups hk' (by rwa [hgroup, h'.group_eq, ← h.group_eq])
  rw [hgroup] at hslot'
  refine ⟨c, c', hget, hget', UInt16.toNat_inj.mp ?_⟩
  rw [hslot havoid, hslot' havoid', hcount]

end AtStart

/-- **Straight ways share their turns with ways through a group.** At a router that takes the links in turn, the slot of
the straight way of a packet is, up to full rounds, the number of the packets before it that go to the same group or
were given it as intermediate group. Where none was given it, other groups do not matter: the slot counts the packets
before it to the same group, and two routers give the same slots to the same destinations, by whatever algorithms. -/
theorem straight_in_turn {settings : Settings} {table : ExitTable.View} {index ports channels : Nat}
    (hinstall : install settings table index ports channels = .ok fresh) (hpolicy : settings.policy = .roundRobin)
    (hlinks : 0 < settings.parameters.links) (hfew : settings.parameters.links ≤ 65536)
    (hgroups : settings.parameters.groups ≤ 2 ^ 32) (qs : List Request) :
    (∀ i k, (fresh.injected qs)[i]? = some k → k.dest.group.toNat ≠ fresh.site.group →
      ∃ c, fresh.site.plan.get k.request.network = .ok c ∧
        (k.straightSlot c.algorithm).toNat =
          Packet.countUsing k.dest.group ((fresh.injected qs).take i) % settings.parameters.links ∧
        (Packet.Avoid k.dest.group ((fresh.injected qs).take i) →
          (k.straightSlot c.algorithm).toNat =
            Packet.countToward k.dest.group ((fresh.injected qs).take i) % settings.parameters.links)) ∧
    ∀ settings' table' ports' channels' fresh' qs', install settings' table' index ports' channels' = .ok fresh' →
      settings'.policy = .roundRobin → settings'.parameters = settings.parameters →
      (fresh.injected qs).map (·.request.destination) = (fresh'.injected qs').map (·.request.destination) →
      ∀ i k k', (fresh.injected qs)[i]? = some k → (fresh'.injected qs')[i]? = some k' →
        k.dest.group.toNat ≠ fresh.site.group → Packet.Avoid k.dest.group ((fresh.injected qs).take i) →
        Packet.Avoid k.dest.group ((fresh'.injected qs').take i) →
        ∃ c c', fresh.site.plan.get k.request.network = .ok c ∧ fresh'.site.plan.get k'.request.network = .ok c' ∧
          k.straightSlot c.algorithm = k'.straightSlot c'.algorithm := by
  have hfresh := atStart_of_install hinstall hpolicy hlinks hfew
  refine ⟨fun i k hk haway => hfresh.straight_slot hgroups hk haway, ?_⟩
  intro settings' table' ports' channels' fresh' qs' hinstall' hpolicy' hsettings hsame i k k' hk hk' haway
    havoid havoid'
  have hfresh' := atStart_of_install hinstall' hpolicy' (hsettings ▸ hlinks) (hsettings ▸ hfew)
  rw [hsettings] at hfresh'
  exact hfresh.same_slot hgroups hfresh' hsame hk hk' haway havoid havoid'

/-- Straight packets and adaptive ones to the same hosts of another group: the second gets the second link both times. -/
theorem straight_in_turn_sample :
    let n := Installation.inTurn
    let fresh := n.newRouter 0 8
    let qs : List Request := [⟨0, 2, 0, 64⟩, ⟨0, 3, 0, 64⟩]
    let qs' : List Request := [⟨0, 2, 2, 64⟩, ⟨0, 3, 2, 64⟩]
    install n.settings n.table 0 n.parameters.radix 8 = .ok fresh ∧ n.settings.policy = .roundRobin ∧
      (0 < n.parameters.links ∧ n.parameters.links ≤ 65536 ∧ n.parameters.groups ≤ 2 ^ 32) ∧
      ∃ k k', (fresh.injected qs)[1]? = some k ∧ (fresh.injected qs')[1]? = some k' ∧ k.slot = 1 ∧ k'.slot = 1 := by
  intro n fresh qs qs'
  have hinstall : install n.settings n.table 0 n.parameters.radix 8 = .ok fresh :=
    install_eq n (by decide) (by decide)
  have hstart : fresh.AtStart n.parameters 0 := atStart_of_install hinstall rfl (by decide) (by decide)
  have hgroups : n.parameters.groups ≤ 2 ^ 32 := by decide
  have hks : fresh.injected qs =
      [⟨⟨0, 2, 0, 64⟩, 0, 0, ⟨1, 1, 1, 0, 0⟩, 0, 0⟩, ⟨⟨0, 3, 0, 64⟩, 0, 0, ⟨1, 1, 1, 1, 0⟩, 1, 1⟩] := by
    decide +kernel
  have haccept : fresh.accept ⟨0, 2, 2, 64⟩ = .ok (⟨1, 1, 1, 0, 0⟩, ⟨5, 3, .adaptive⟩) :=
    ok_of_toOption (by decide +kernel)
  have haccept' : fresh.accept ⟨0, 3, 2, 64⟩ = .ok (⟨1, 1, 1, 1, 0⟩, ⟨5, 3, .adaptive⟩) :=
    ok_of_toOption (by decide +kernel)
  have hsite := (drawing_inject hstart.group_lt ⟨0, 2, 2, 64⟩).site_eq
  obtain ⟨k₁, hfirst, hgroup, hshows⟩ := exists_injected_cons hgroups hstart.group_lt haccept [⟨0, 3, 2, 64⟩]
  rw [← accept_of_site_eq hsite] at haccept'
  obtain ⟨k₂, hsecond, -, hshows'⟩ :=
    exists_injected_cons (hsite.symm ▸ hgroups) (hsite.symm ▸ hstart.group_lt) haccept' []
  have hks' : fresh.injected qs' = [k₁, k₂] := by rw [hfirst, hsecond, injected]
  obtain ⟨-, hsame⟩ := straight_in_turn hinstall rfl (by decide) (by decide) hgroups qs
  have hdestinations : (fresh.injected qs).map (·.request.destination) =
      (fresh.injected qs').map (·.request.destination) := by
    rw [hks, hks']
    simp only [List.map_cons, List.map_nil, hshows.request_eq, hshows'.request_eq]
  have havoid : Packet.Avoid 1 ((fresh.injected qs).take 1) := by
    rw [hks]
    intro k hk _
    cases List.mem_singleton.mp hk
    rfl
  have havoid' : Packet.Avoid 1 ((fresh.injected qs').take 1) := by
    rw [hks']
    intro k hk _
    rw [List.mem_singleton.mp hk, hgroup]
  have hk : (fresh.injected qs)[1]? = some ⟨⟨0, 3, 0, 64⟩, 0, 0, ⟨1, 1, 1, 1, 0⟩, 1, 1⟩ := by
    rw [hks]
    rfl
  have hk' : (fresh.injected qs')[1]? = some k₂ := by
    rw [hks']
    rfl
  obtain ⟨c, c', hget, hget', hslot⟩ :=
    hsame n.settings n.table _ 8 fresh qs' hinstall rfl rfl hdestinations 1 _ _ hk hk' (by decide) havoid havoid'
  rw [hshows'.request_eq] at hget'
  cases hget
  cases hget'
  exact ⟨hinstall, rfl, by decide, _, _, hk, hk', rfl, hslot.symm⟩

/-- The other way is drawn from the same counter. A packet that is sent through the third group takes the turn that the
first packet to that group would have got. -/
theorem turn_taken :
    let n := Installation.inTurn
    let fresh := n.newRouter 0 8
    let ks := fresh.injected [⟨0, 2, 1, 64⟩, ⟨0, 4, 0, 64⟩]
    install n.settings n.table 0 n.parameters.radix 8 = .ok fresh ∧ n.settings.policy = .roundRobin ∧
      ¬∀ i k c, ks[i]? = some k → fresh.site.plan.get k.request.network = .ok c →
        k.dest.group.toNat ≠ fresh.site.group →
        (k.straightSlot c.algorithm).toNat = Packet.countToward k.dest.group (ks.take i) % n.parameters.links := by
  intro n fresh ks
  have hinstall : install n.settings n.table 0 n.parameters.radix 8 = .ok fresh :=
    install_eq n (by decide) (by decide)
  have hstart : fresh.AtStart n.parameters 0 := atStart_of_install hinstall rfl (by decide) (by decide)
  have hservice := InService.install hinstall
  refine ⟨hinstall, rfl, fun hclaim => ?_⟩
  obtain ⟨first, hfirst, hentered⟩ :=
    hservice.inject_spec (q := ⟨0, 2, 1, 64⟩) (c := ⟨2, 3, .valiant⟩) (by decide) (ok_of_toOption (by decide))
  obtain ⟨k, hk, hentered'⟩ :=
    (hservice.inject ⟨0, 2, 1, 64⟩).inject_spec (q := ⟨0, 4, 0, 64⟩) (c := ⟨0, 2, .minimal⟩) (by decide)
      (ok_of_toOption (by decide))
  have hks : ks = [first, k] := by
    show fresh.injected _ = _
    rw [injected, hfirst]
    dsimp only
    rw [injected, hk]
    rfl
  have hgroup : first.dest.group.toNat = 1 := hentered.group_eq.trans (by decide)
  have hgroup' : k.dest.group.toNat = 2 := hentered'.group_eq.trans (by decide)
  -- There is no other group that the first packet could be sent through.
  have halternate : first.dest.alternate.toNat = 2 := by
    cases hentered.way with
    | straight _ _ few => exact absurd (few.imp_right (Or.imp_right (·.trans hgroup))) (by decide)
    | around _ _ _ hlt hsource hne =>
      have hlt : first.dest.alternate.toNat < 3 := hlt
      have hsource : first.dest.alternate.toNat ≠ 0 := hsource.trans_eq (by decide)
      have hne : first.dest.alternate.toNat ≠ first.dest.group.toNat := fun heq => hne (UInt32.toNat_inj.mp heq)
      omega
    | either algorithm_eq => cases algorithm_eq
  have hk : ks[1]? = some k := by
    rw [hks]
    rfl
  have haway : k.dest.group.toNat ≠ fresh.site.group := by
    rw [hgroup']
    decide
  obtain ⟨c, hget, hslot, -⟩ := hstart.straight_slot (by decide) hk haway
  have hbefore : ks.take 1 = [first] := by rw [hks, List.take_succ_cons, List.take_zero]
  have husing : Packet.countUsing k.dest.group [first] = 1 := by
    rw [Packet.countUsing, List.countP_singleton, if_pos]
    exact decide_eq_true (.inr (UInt32.toNat_inj.mp (halternate.trans hgroup'.symm)))
  have htoward : Packet.countToward k.dest.group [first] = 0 := by
    rw [Packet.countToward, List.countP_singleton, if_neg]
    intro heq
    rw [of_decide_eq_true heq, hgroup'] at hgroup
    exact absurd hgroup (by decide)
  have hnone := hclaim 1 k c hk hget haway
  rw [hslot, hbefore, husing, htoward] at hnone
  exact absurd hnone (by decide)

end Router

end DragonflyFabric
