import DragonflyFabric.Proofs.Draws
import DragonflyFabric.Proofs.Installation
import DragonflyFabric.Proofs.Router.Runs

/-!
# Routers in service

A router of an installed network is in service as long as nobody holds the congestion arrays it looks at.
What passes through it changes its counters and its random numbers alone, and every counter stays the number
of a parallel link.

* `InService.install`: a router that was just installed is in service.
* `InService.inject`, `InService.forwardSeen`: it stays in service, whatever the packet, and also where the
  packet is refused.
-/

namespace DragonflyFabric

/-- The router that is installed at a place. -/
def Installation.newRouter (n : Installation) (index channels : Nat) : Router where
  site :=
    { parameters := n.parameters
      index := index
      numbering := n.numbering
      table := n.table
      plan := n.plan
      threshold := n.settings.threshold
      policy := n.settings.policy
      channels := channels }
  counters := Array.replicate n.parameters.groups 0
  random := .ofSeed (UInt64.ofNat n.settings.seed + UInt64.ofNat index)
  credits := none
  queues := none

namespace Router

variable {n : Installation} {index source group destination : Nat} {r fresh : Router}

/-- A router at a place of the network, in any state that its own work and that of its buffers can leave it
in. Its random numbers may stand anywhere. -/
structure InService (n : Installation) (index : Nat) (r : Router) : Prop where
  installed : ∃ ports channels fresh,
    install n.settings n.table index ports channels = .ok fresh ∧ r.site = fresh.site
  counters_lt : ∀ slot ∈ r.counters, slot < n.parameters.links
  free : ∀ g m, r.meter g = some m → m.held = false

/-! ### The site -/

/-- A router that was installed is new, and has channels for all classes. -/
theorem eq_of_install {settings : Settings} {table : ExitTable.View} {ports channels : Nat}
    (h : install settings table index ports channels = .ok fresh) :
    ∃ plan, settings.plan = .ok plan ∧ plan.total ≤ channels ∧ index < settings.parameters.routerCount ∧
      fresh =
        { site :=
            { parameters := settings.parameters
              index := index
              numbering := settings.numbering
              table := table
              plan := plan
              threshold := settings.threshold
              policy := settings.policy
              channels := channels }
          counters := Array.replicate settings.parameters.groups 0
          random := .ofSeed (UInt64.ofNat settings.seed + UInt64.ofNat index)
          credits := none
          queues := none } := by
  rw [install] at h
  obtain ⟨_, -, h⟩ := ok_of_bind_ok h
  by_cases hindex : settings.parameters.routerCount ≤ index
  · rw [if_pos hindex] at h
    cases h
  rw [if_neg hindex] at h
  dsimp only at h
  split at h
  · cases h
  obtain ⟨plan, hplan, h⟩ := ok_of_bind_ok h
  obtain ⟨_, hfits, h⟩ := ok_of_bind_ok h
  rw [ChannelPlan.checkFits] at hfits
  split at hfits
  · cases hfits
  · next hle =>
    cases h
    exact ⟨plan, hplan, Nat.le_of_not_lt hle, Nat.lt_of_not_le hindex, rfl⟩

theorem of_install {ports channels : Nat} (h : install n.settings n.table index ports channels = .ok fresh) :
    index < n.parameters.routerCount ∧ fresh = n.newRouter index channels := by
  obtain ⟨plan, hplan, -, hindex, rfl⟩ := eq_of_install h
  rw [n.plan_eq] at hplan
  cases hplan
  exact ⟨hindex, rfl⟩

/-- A router can be installed at every place, with ports as counted and enough channels. -/
theorem install_eq (n : Installation) (hindex : index < n.parameters.routerCount) {channels : Nat}
    (hchannels : n.plan.total ≤ channels) :
    install n.settings n.table index n.parameters.radix channels = .ok (n.newRouter index channels) := by
  have hsize := ExitTable.View.size_of_ofLinkMap n.table_eq
  rw [install, Parameters.checkRadix]
  dsimp only
  rw [if_pos rfl, if_neg (Nat.not_le.mpr hindex), if_neg (by rw [hsize.1, hsize.2]; simp), n.plan_eq]
  dsimp only [bind, Except.bind]
  rw [ChannelPlan.checkFits, if_neg (Nat.not_lt.mpr hchannels)]
  rfl

theorem InService.install {ports channels : Nat}
    (h : install n.settings n.table index ports channels = .ok fresh) : fresh.InService n index := by
  refine ⟨⟨ports, channels, fresh, h, rfl⟩, ?_, ?_⟩
  all_goals rw [(of_install h).2]
  · intro slot hslot
    rw [(Array.mem_replicate.mp hslot).2]
    exact n.checked.links_pos
  · intro g m hm
    cases g <;> cases hm

namespace InService

variable (h : r.InService n index)

include h

theorem index_lt : index < n.parameters.routerCount := by
  obtain ⟨_, _, _, hfresh, -⟩ := h.installed
  exact (of_install hfresh).1

/-- The site, but for the number of virtual channels of its ports. -/
theorem site_eq : ∃ channels, r.site = (n.newRouter index channels).site := by
  obtain ⟨_, channels, _, hfresh, hsite⟩ := h.installed
  rw [(of_install hfresh).2] at hsite
  exact ⟨channels, hsite⟩

theorem parameters_eq : r.site.parameters = n.parameters := by
  obtain ⟨_, hsite⟩ := h.site_eq
  rw [hsite]
  rfl

theorem numbering_eq : r.site.numbering = n.numbering := by
  obtain ⟨_, hsite⟩ := h.site_eq
  rw [hsite]
  rfl

theorem table_eq : r.site.table = n.table := by
  obtain ⟨_, hsite⟩ := h.site_eq
  rw [hsite]
  rfl

theorem plan_eq : r.site.plan = n.plan := by
  obtain ⟨_, hsite⟩ := h.site_eq
  rw [hsite]
  rfl

theorem policy_eq : r.site.policy = n.settings.policy := by
  obtain ⟨_, hsite⟩ := h.site_eq
  rw [hsite]
  rfl

theorem group_eq : r.site.group = n.parameters.groupOf index := by
  obtain ⟨_, hsite⟩ := h.site_eq
  rw [hsite]
  rfl

theorem position_eq : r.site.position = n.parameters.positionOf index := by
  obtain ⟨_, hsite⟩ := h.site_eq
  rw [hsite]
  rfl

theorem group_lt : n.parameters.groupOf index < n.parameters.groups :=
  Parameters.groupOf_lt h.index_lt

/-- Nothing else has to be looked at when counters and random numbers change. -/
theorem change {counters : Array Nat} (hc : ∀ slot ∈ counters, slot < n.parameters.links)
    (random : Random.Stream) : ({ r with counters := counters, random := random } : Router).InService n index :=
  ⟨h.installed, hc, fun g m hm => h.free g m (by cases g <;> exact hm)⟩

/-- Nor when the router gets to see other queues, in an array that is free. -/
theorem setQueues (levels : Array Int) : (r.setQueues levels).InService n index := by
  refine ⟨h.installed, h.counters_lt, fun g m hm => ?_⟩
  cases g with
  | credits => exact h.free .credits m hm
  | queues =>
    cases hm
    rfl

/-- Thirty-two bits number its groups. -/
theorem groups_le : r.site.parameters.groups ≤ 2 ^ 32 := by
  have := n.groups_lt
  rw [h.parameters_eq]
  omega

/-- It has the channels of all classes. -/
theorem total_le : n.plan.total ≤ r.site.channels := by
  obtain ⟨_, channels, _, hfresh, hsite⟩ := h.installed
  obtain ⟨plan, hplan, hle, -, rfl⟩ := eq_of_install hfresh
  rw [n.plan_eq] at hplan
  cases hplan
  rw [hsite]
  exact hle

end InService

/-- What a router sees of its buffers has as many channels for each port as the router. -/
theorem channels_of_congestion {seen : Congestion} (h : r.congestion = .ok seen) : seen.channels = r.site.channels := by
  rw [congestion] at h
  obtain ⟨_, -, h⟩ := ok_of_bind_ok h
  obtain ⟨_, -, h⟩ := ok_of_bind_ok h
  cases h
  rfl

/-! ### Slots and intermediate groups -/

theorem toNat_ofNat_lt {slot links : Nat} (h : slot < links) : (UInt16.ofNat slot).toNat < links :=
  lt_of_le_of_lt (Nat.mod_le _ _) h

/-- A router in one of the groups, whose counters and whose fixed slot, if it has one, number parallel links. -/
structure Bounded (r : Router) : Prop where
  group_lt : r.site.group < r.site.parameters.groups
  links_pos : 0 < r.site.parameters.links
  fixed_lt : ∀ slot, r.site.policy = .fixed slot → slot < r.site.parameters.links
  counters_lt : ∀ slot ∈ r.counters, slot < r.site.parameters.links

/-- Only the site and the counters are looked at. -/
theorem Bounded.change {r' : Router} (h : r.Bounded) (hsite : r'.site = r.site)
    (hcounters : ∀ slot ∈ r'.counters, slot < r.site.parameters.links) : r'.Bounded := by
  refine ⟨?_, ?_, ?_, ?_⟩
  all_goals rw [hsite]
  · exact h.group_lt
  · exact h.links_pos
  · exact h.fixed_lt
  · exact hcounters

/-- **The slot is one of the parallel links**, whatever the policy. Cutting it to sixteen bits makes it
no greater. -/
theorem Bounded.chooseSlot (h : r.Bounded) (source group : Nat) :
    (r.chooseSlot source group).1.toNat < r.site.parameters.links ∧ (r.chooseSlot source group).2.Bounded := by
  have hlinks := h.links_pos
  rw [Router.chooseSlot]
  dsimp only
  split
  · next slot hpolicy => exact ⟨toNat_ofNat_lt (h.fixed_lt slot hpolicy), h⟩
  · split
    · next slot hslot =>
      refine ⟨toNat_ofNat_lt (h.counters_lt slot (Array.mem_of_getElem? hslot)), h.change rfl ?_⟩
      intro other hother
      rcases Array.mem_or_eq_of_mem_setIfInBounds hother with hold | rfl
      · exact h.counters_lt other hold
      · exact Nat.mod_lt _ hlinks
    · exact ⟨hlinks, h⟩
  · exact ⟨toNat_ofNat_lt (Nat.mod_lt _ hlinks), h⟩
  · exact ⟨toNat_ofNat_lt (Random.draw_lt hlinks _), h.change rfl h.counters_lt⟩

theorem InService.bounded (h : r.InService n index) : r.Bounded := by
  refine ⟨?_, ?_, ?_, ?_⟩
  · rw [h.group_eq, h.parameters_eq]
    exact h.group_lt
  · rw [h.parameters_eq]
    exact n.checked.links_pos
  · rw [h.policy_eq, h.parameters_eq]
    exact n.accepted.slot_lt
  · rw [h.parameters_eq]
    exact h.counters_lt

/-- A slot is drawn from the counters and the random numbers, and nothing else of the router changes. -/
theorem router_chooseSlot (r : Router) (source group : Nat) :
    (r.chooseSlot source group).2 =
      { r with
        counters := (r.chooseSlot source group).2.counters
        random := (r.chooseSlot source group).2.random } := by
  rw [chooseSlot]
  dsimp only
  split
  · rfl
  · split <;> rfl
  · rfl
  · rfl

@[simp] theorem site_chooseSlot (r : Router) (source group : Nat) : (r.chooseSlot source group).2.site = r.site := by
  rw [router_chooseSlot]

/-- With fewer than three groups there is no intermediate one, and nothing is drawn. -/
theorem drawIntermediate_of_few (h : r.site.parameters.groups < 3) (destination : Nat) :
    r.drawIntermediate destination = (none, r) :=
  if_pos h

theorem drawIntermediate_of_many (h : 3 ≤ r.site.parameters.groups) (destination : Nat) :
    r.drawIntermediate destination =
      (some (passingOver r.site.group destination (Random.draw (r.site.parameters.groups - 2) r.random).1),
        { r with random := (Random.draw (r.site.parameters.groups - 2) r.random).2 }) :=
  if_neg (Nat.not_lt.mpr h)

/-- An intermediate group is drawn from the random numbers, and nothing else of the router changes. -/
theorem router_drawIntermediate (r : Router) (destination : Nat) :
    (r.drawIntermediate destination).2 = { r with random := (r.drawIntermediate destination).2.random } := by
  rcases Nat.lt_or_ge r.site.parameters.groups 3 with hfew | hmany
  · rw [drawIntermediate_of_few hfew]
  · rw [drawIntermediate_of_many hmany]

@[simp] theorem site_drawIntermediate (r : Router) (destination : Nat) :
    (r.drawIntermediate destination).2.site = r.site := by
  rw [router_drawIntermediate]

theorem InService.chooseSlot (h : r.InService n index) (source group : Nat) :
    (r.chooseSlot source group).1.toNat < n.parameters.links ∧
      (r.chooseSlot source group).2.InService n index := by
  obtain ⟨hslot, hbounded⟩ := h.bounded.chooseSlot source group
  have hcounters := hbounded.counters_lt
  rw [router_chooseSlot] at hcounters ⊢
  rw [h.parameters_eq] at hslot hcounters
  exact ⟨hslot, h.change hcounters _⟩

theorem passingOver_spec {groups a b k : Nat} (ha : a < groups) (hb : b < groups)
    (hk : k < groups - 2) :
    passingOver a b k < groups ∧ passingOver a b k ≠ a ∧ passingOver a b k ≠ b := by
  simp only [passingOver]
  split <;> split <;> omega

theorem Bounded.drawIntermediate (h : r.Bounded) (destination : Nat) : (r.drawIntermediate destination).2.Bounded := by
  rw [router_drawIntermediate]
  exact h.change rfl h.counters_lt

theorem InService.drawIntermediate (h : r.InService n index) (destination : Nat) :
    (r.drawIntermediate destination).2.InService n index := by
  rw [router_drawIntermediate]
  exact h.change h.counters_lt _

/-- An intermediate group is neither this one nor the destination, and there is one as soon as there are
three groups. -/
theorem drawIntermediate_cases (hgroup : r.site.group < r.site.parameters.groups)
    (hd : destination < r.site.parameters.groups) :
    (r.drawIntermediate destination).1 = none ∧ r.site.parameters.groups < 3 ∨
    ∃ group, (r.drawIntermediate destination).1 = some group ∧ group < r.site.parameters.groups ∧
      group ≠ r.site.group ∧ group ≠ destination := by
  rcases Nat.lt_or_ge r.site.parameters.groups 3 with hfew | hmany
  · exact .inl ⟨congrArg Prod.fst (drawIntermediate_of_few hfew destination), hfew⟩
  · have hspec := passingOver_spec hgroup hd
      (Random.draw_lt (by omega : 0 < r.site.parameters.groups - 2) r.random)
    exact .inr ⟨_, congrArg Prod.fst (drawIntermediate_of_many hmany destination), hspec⟩

/-! ### What passes leaves the router in service -/

section Passing

variable {t : Transit} {channel : Nat} {c : Congestion}

theorem InService.takeSlot (h : t.router.InService n index) (group : Nat) :
    (t.takeSlot group).router.InService n index := (h.chooseSlot _ group).2

theorem InService.turnHome (h : t.router.InService n index) : t.turnHome.router.InService n index := by
  rw [Transit.turnHome]
  dsimp only
  split
  · exact h.takeSlot (t := { t with packet := _ }) _
  · exact h

theorem InService.divert (h : t.router.InService n index) (through : Nat) :
    ((Transit.divert through).run t).2.router.InService n index := by
  rw [Transit.divert_run]
  split
  · exact h
  · exact h.takeSlot (t := { t with packet := _ }) through

theorem InService.choose (h : t.router.InService n index) (algorithm : Algorithm) (destination : Nat) :
    ((Transit.choose algorithm destination).run t).2.router.InService n index := by
  have hslot := h.takeSlot destination
  have hdraw := hslot.drawIntermediate destination
  rw [Transit.choose_run]
  dsimp only
  split
  · exact hslot
  · split
    · exact hdraw
    · split
      · exact hdraw.divert (t := { router := _, packet := _ }) _
      · exact (hdraw.chooseSlot _ _).2

theorem InService.choosePort (h : t.router.InService n index) (algorithm : Algorithm) (stage : Stage) :
    ((Transit.choosePort algorithm stage channel c).run t).2.router.InService n index := by
  have hhome := h.turnHome
  rw [Transit.choosePort_run]
  split
  · exact h
  · exact h
  · dsimp only
    split
    · exact hhome
    · exact hhome

theorem InService.forward (h : t.router.InService n index) :
    ((Transit.forward channel c).run t).2.router.InService n index :=
  Transit.kept_of_forward (I := fun t => t.router.InService n index) h
    (fun _ _ _ _ => h.choosePort _ _) fun _ _ h => h

/-- **A router stays in service when a packet passes**, also when it refuses the packet. -/
theorem InService.forwardSeen (h : t.router.InService n index) (channel : Nat) :
    ((Transit.forwardSeen channel).run t).2.router.InService n index :=
  Transit.kept_of_forwardSeen (I := fun t => t.router.InService n index) h fun _ => h.forward

/-- **A router stays in service when a packet enters**, also when it refuses the request. -/
theorem InService.inject (h : r.InService n index) (q : Request) : (r.inject q).2.InService n index := by
  rw [Router.inject]
  dsimp only
  split
  · exact h
  · split
    · exact h
    · exact h.choose (t := .enter r q _ _) _ _

end Passing

end Router

end DragonflyFabric
