import DragonflyFabric.Proofs.Journey.Course

/-!
# Itineraries

What the journey of a packet looks like from the router it entered at: `itinerary`. It depends on the
algorithm, on the way that was chosen when the packet entered and, for an adaptive packet, on what it decided
at the first two routers. Whatever is said of journeys is read off the four forms of `Itinerary`.

A channel is taken for each group that is left (`climbs`), and it is never left for a lower one.
-/

namespace DragonflyFabric

/-- The marks of a journey that starts at a router. -/
inductive Itinerary (n : Installation) (c : TrafficClass) (index : Nat) (k : Packet) : List Mark → Prop
  /-- Within the group. -/
  | home (here : n.parameters.groupOf index = k.dest.group.toNat) :
      Itinerary n c index k (Mark.arrival k.dest.group.toNat c.start
        (decide (n.parameters.positionOf index ≠ k.dest.router.toNat)))
  /-- Straight to another group. -/
  | direct (away : n.parameters.groupOf index ≠ k.dest.group.toNat)
      (open_or_few : c.algorithm = .valiant → n.parameters.groups < 3) (aside aside' : Bool) :
      Itinerary n c index k
        (Mark.direct (n.parameters.groupOf index) k.dest.group.toNat c.start aside aside')
  /-- Through the group that was chosen when the packet entered. -/
  | around (away : n.parameters.groupOf index ≠ k.dest.group.toNat) (algorithm : c.algorithm = .valiant)
      (target : k.dest.target = k.dest.alternate)
      (ne_source : k.dest.alternate.toNat ≠ n.parameters.groupOf index)
      (ne_group : k.dest.alternate ≠ k.dest.group) (aside aside' aside'' : Bool) :
      Itinerary n c index k
        (Mark.detour (n.parameters.groupOf index) k.dest.alternate.toNat k.dest.group.toNat c.start
          k.dest.alternate.toNat aside aside' aside'')
  /-- Through that group, after a turn. -/
  | turned (away : n.parameters.groupOf index ≠ k.dest.group.toNat) (algorithm : c.algorithm = .adaptive)
      (ne_source : k.dest.alternate.toNat ≠ n.parameters.groupOf index)
      (ne_group : k.dest.alternate ≠ k.dest.group) (hesitates aside aside' aside'' : Bool) :
      Itinerary n c index k
        (Mark.approach (n.parameters.groupOf index) k.dest.group.toNat c.start hesitates ++
          Mark.detour (n.parameters.groupOf index) k.dest.alternate.toNat k.dest.group.toNat c.start
            k.dest.group.toNat aside aside' aside'')

namespace Itinerary

variable {n : Installation} {c : TrafficClass} {network index : Nat} {k : Packet} {marks : List Mark}

theorem climbs (h : Itinerary n c index k marks) : Mark.Climbs c.start marks := by
  cases h with
  | home => exact Mark.climbs_arrival _ _ _
  | direct => exact Mark.climbs_crossing (Mark.climbs_arrival _ _ _) _ _ _ _ _
  | around =>
    exact Mark.climbs_crossing (Mark.climbs_crossing (Mark.climbs_arrival _ _ _) _ _ _ _ _) _ _ _ _ _
  | turned =>
    exact Mark.climbs_approach
      (Mark.climbs_crossing (Mark.climbs_crossing (Mark.climbs_arrival _ _ _) _ _ _ _ _) _ _ _ _ _) _ _ _

/-- Only an adaptive packet takes two hops within a group one after the other. -/
theorem alternates (h : Itinerary n c index k marks) (hc : c.algorithm ≠ .adaptive) : Mark.Alternates marks := by
  cases h with
  | home => exact Mark.alternates_arrival _ _ _
  | direct => exact Mark.alternates_direct _ _ _ _ _
  | around => exact Mark.alternates_detour _ _ _ _ _ _ _ _
  | turned _ halgorithm => exact absurd halgorithm hc

/-! ### Packets that stay in their group, and minimal ones -/

theorem eq_arrival (h : Itinerary n c index k marks) (here : n.parameters.groupOf index = k.dest.group.toNat) :
    marks = Mark.arrival k.dest.group.toNat c.start
      (decide (n.parameters.positionOf index ≠ k.dest.router.toNat)) := by
  cases h with
  | home => rfl
  | direct away => exact absurd here away
  | around away => exact absurd here away
  | turned away => exact absurd here away

theorem exists_direct (h : Itinerary n c index k marks) (hminimal : c.algorithm = .minimal)
    (away : n.parameters.groupOf index ≠ k.dest.group.toNat) :
    ∃ aside aside', marks = Mark.direct (n.parameters.groupOf index) k.dest.group.toNat c.start aside aside' := by
  cases h with
  | home here => exact absurd here away
  | direct _ _ aside aside' => exact ⟨aside, aside', rfl⟩
  | around _ hvaliant =>
    rw [hminimal] at hvaliant
    cases hvaliant
  | turned _ hadaptive =>
    rw [hminimal] at hadaptive
    cases hadaptive

/-- A minimal packet never has the label of those that may cross another wire between groups. -/
theorem label_eq_zero (h : Itinerary n c index k marks) (hminimal : c.algorithm = .minimal) {m : Mark}
    (hm : m ∈ marks) : m.label = 0 := by
  by_cases hhere : n.parameters.groupOf index = k.dest.group.toNat
  · rw [h.eq_arrival hhere] at hm
    exact (Mark.of_mem_arrival hm).2.1
  · obtain ⟨aside, aside', rfl⟩ := h.exists_direct hminimal hhere
    exact (Mark.of_mem_direct hm).1

/-- A minimal packet is at its host after four hops. -/
theorem length_le_of_minimal (h : Itinerary n c index k marks) (hminimal : c.algorithm = .minimal) :
    marks.length ≤ 4 := by
  by_cases hhere : n.parameters.groupOf index = k.dest.group.toNat
  · rw [h.eq_arrival hhere]
    exact Nat.le_trans (Mark.length_arrival_le _ _ _) (by decide)
  · obtain ⟨aside, aside', rfl⟩ := h.exists_direct hminimal hhere
    exact Mark.length_direct_le _ _ _ _ _

/-! ### Valiant packets -/

/-- Where there are three groups, a Valiant packet for another group goes through a third. -/
theorem exists_detour (h : Itinerary n c index k marks) (hvaliant : c.algorithm = .valiant)
    (hgroups : 3 ≤ n.parameters.groups) (away : n.parameters.groupOf index ≠ k.dest.group.toNat) :
    k.dest.target = k.dest.alternate ∧ k.dest.alternate.toNat ≠ n.parameters.groupOf index ∧
      k.dest.alternate.toNat ≠ k.dest.group.toNat ∧
      ∃ aside aside' aside'', marks =
        Mark.detour (n.parameters.groupOf index) k.dest.alternate.toNat k.dest.group.toNat c.start
          k.dest.alternate.toNat aside aside' aside'' := by
  cases h with
  | home here => exact absurd here away
  | direct _ few => exact absurd (few hvaliant) (Nat.not_lt.mpr hgroups)
  | around _ _ htarget ne_source ne_group aside aside' aside'' =>
    exact ⟨htarget, ne_source, fun heq => ne_group (UInt32.toNat_inj.mp heq), aside, aside', aside'', rfl⟩
  | turned _ hadaptive =>
    rw [hvaliant] at hadaptive
    cases hadaptive

/-! ### Adaptive packets -/

/-- No journey has more than seven hops. -/
theorem length_le (h : Itinerary n c index k marks) : marks.length ≤ 7 := by
  cases h with
  | home => exact Nat.le_trans (Mark.length_arrival_le _ _ _) (by decide)
  | direct => exact Nat.le_trans (Mark.length_direct_le _ _ _ _ _) (by decide)
  | around => exact Nat.le_trans (Mark.length_detour_le _ _ _ _ _ _ _ _) (by decide)
  | turned =>
    rw [List.length_append]
    exact Nat.add_le_add (Mark.length_approach_le _ _ _ _) (Mark.length_detour_le _ _ _ _ _ _ _ _)

/-- There are fewer wires between groups than channels. -/
theorem count_lt (h : Itinerary n c index k marks) :
    (marks.filterMap Mark.wire).count Link.globalKind < c.algorithm.channels := by
  cases h with
  | home =>
    rw [Mark.wires_arrival, Mark.count_within]
    cases c.algorithm <;> decide
  | direct =>
    rw [Mark.count_direct]
    cases c.algorithm <;> decide
  | around _ halgorithm =>
    rw [halgorithm, Mark.count_detour]
    decide
  | turned _ halgorithm =>
    rw [halgorithm, List.filterMap_append, List.count_append, Mark.wires_approach, Mark.count_within,
      Mark.count_detour]
    decide

/-- No journey crosses more than six wires between routers. -/
theorem length_wires_le (h : Itinerary n c index k marks) : (marks.filterMap Mark.wire).length ≤ 6 := by
  cases h with
  | home =>
    rw [Mark.wires_arrival]
    exact Nat.le_trans (Mark.length_within_le _) (by decide)
  | direct => exact Nat.le_trans (Mark.length_wires_direct_le _ _ _ _ _) (by decide)
  | around => exact Nat.le_trans (Mark.length_wires_detour_le _ _ _ _ _ _ _ _) (by decide)
  | turned =>
    rw [List.filterMap_append, List.length_append, Mark.wires_approach]
    exact Nat.add_le_add (Mark.length_within_le _) (Mark.length_wires_detour_le _ _ _ _ _ _ _ _)

/-- No journey has more than two hops within the group it starts in. -/
theorem local_le (h : Itinerary n c index k marks) :
    ((marks.filter (·.group = n.parameters.groupOf index)).filterMap Mark.wire).count Link.localKind ≤ 2 := by
  cases h with
  | home here =>
    rw [here]
    exact Nat.le_trans (Mark.local_arrival_le _ _ _) (by decide)
  | direct away => exact Nat.le_trans (Mark.local_direct_le away _ _ _) (by decide)
  | around away _ _ ne_source => exact Mark.local_detour_le away ne_source _ _ false _ _ _
  | turned away _ ne_source => exact Mark.local_detour_le away ne_source _ _ _ _ _ _

/-- Two hops within a group, one after the other, are those of an adaptive packet in the group it starts in:
one to the gate of the straight way, and after the turn one to the gate of the other. It is still in the first
channel of its class. -/
theorem of_hops_within (h : Itinerary n c index k marks) {i : Nat} {a b : Mark} (ha : marks[i]? = some a)
    (hb : marks[i + 1]? = some b) (honward : b.wire ≠ none) (ha' : a.wire ≠ some Link.globalKind)
    (hb' : b.wire ≠ some Link.globalKind) :
    c.algorithm = .adaptive ∧ n.parameters.groupOf index ≠ k.dest.group.toNat ∧
      k.dest.alternate.toNat ≠ n.parameters.groupOf index ∧ k.dest.alternate ≠ k.dest.group ∧
      a.group = n.parameters.groupOf index ∧ b.group = n.parameters.groupOf index ∧
      a.channel = c.start ∧ b.channel = c.start := by
  have hnever (halternates : b.wire = none ∨ a.wire = some Link.globalKind ∨ b.wire = some Link.globalKind) :
      False := by
    rcases halternates with hnone | hglobal | hglobal
    · exact honward hnone
    · exact ha' hglobal
    · exact hb' hglobal
  cases h with
  | home => exact (hnever ((Mark.alternates_arrival _ _ _).step ha hb)).elim
  | direct => exact (hnever ((Mark.alternates_direct _ _ _ _ _).step ha hb)).elim
  | around => exact (hnever ((Mark.alternates_detour _ _ _ _ _ _ _ _).step ha hb)).elim
  | turned haway halgorithm hsource hgroup =>
    rcases (Mark.alternates_detour _ _ _ _ _ _ _ _).step_approach ha hb with halternates | ⟨rfl, hfirst⟩
    · exact (hnever halternates).elim
    · obtain ⟨hin, hglobal | hchannel⟩ := Mark.of_first_detour hfirst
      · exact absurd hglobal hb'
      · exact ⟨halgorithm, haway, hsource, hgroup, rfl, hin, rfl, hchannel⟩

/-- A packet turns away from its group in the group it starts in, to the other group that was chosen for it,
and then visits that group. -/
theorem of_turnsFrom (h : Itinerary n c index k marks) {m : Mark} (hm : m ∈ marks)
    (hturns : m.turnsFrom k.dest.group.toNat = true) :
    m.group = n.parameters.groupOf index ∧ m.left = k.dest.alternate.toNat ∧
      (marks.map Mark.group).destutter (· ≠ ·) =
        [n.parameters.groupOf index, k.dest.alternate.toNat, k.dest.group.toNat] := by
  have hleaves : m.left ≠ k.dest.group.toNat := Mark.left_ne_of_turnsFrom hturns
  cases h with
  | home => exact absurd (Mark.of_mem_arrival hm).2.2.2 hleaves
  | direct => exact absurd (Mark.of_mem_direct hm).2 hleaves
  | around _ _ _ ne_source ne_group =>
    have hne : k.dest.alternate.toNat ≠ k.dest.group.toNat := fun heq => ne_group (UInt32.toNat_inj.mp heq)
    rcases Mark.of_mem_detour hm with ⟨hgroup, -, hleft, -⟩ | ⟨-, -, hleft⟩ | ⟨-, -, hleft⟩
    · exact ⟨hgroup, hleft, Mark.visited_detour ne_source.symm hne _ _ false _ _ _⟩
    · exact absurd hleft hleaves
    · exact absurd hleft hleaves
  | turned _ _ ne_source ne_group =>
    have hne : k.dest.alternate.toNat ≠ k.dest.group.toNat := fun heq => ne_group (UInt32.toNat_inj.mp heq)
    rcases List.mem_append.mp hm with hm | hm
    · exact absurd (Mark.of_mem_approach hm).2.2 hleaves
    rcases Mark.of_mem_detour hm with ⟨hgroup, -, hleft, -⟩ | ⟨-, -, hleft⟩ | ⟨-, -, hleft⟩
    · exact ⟨hgroup, hleft, Mark.visited_detour ne_source.symm hne _ _ _ _ _ _⟩
    · exact absurd hleft hleaves
    · exact absurd hleft hleaves

/-- It turns away at most once. -/
theorem countP_turnsFrom_le (h : Itinerary n c index k marks) :
    marks.countP (Mark.turnsFrom k.dest.group.toNat) ≤ 1 := by
  cases h with
  | home =>
    rw [Mark.countP_turnsFrom_eq_zero fun m hm => (Mark.of_mem_arrival hm).2.2.2]
    decide
  | direct =>
    rw [Mark.countP_turnsFrom_eq_zero fun m hm => (Mark.of_mem_direct hm).2]
    decide
  | around _ _ _ _ ne_group =>
    exact Mark.countP_turnsFrom_detour_le (fun heq => ne_group (UInt32.toNat_inj.mp heq)) _ _ _ _ _ _
  | turned _ _ _ ne_group =>
    rw [List.countP_append, Mark.countP_turnsFrom_eq_zero fun m hm => (Mark.of_mem_approach hm).2.2, Nat.zero_add]
    exact Mark.countP_turnsFrom_detour_le (fun heq => ne_group (UInt32.toNat_inj.mp heq)) _ _ _ _ _ _

/-- **The channel of a packet says how many wires between groups it has crossed**, and it is one of its class. -/
theorem climbs_legs {legs : List Leg} (hc : n.plan.get network = .ok c)
    (h : Itinerary n c index k (legs.map n.fabric.mark)) : n.fabric.Climbs c legs := by
  intro i leg hleg
  have hmark : (legs.map n.fabric.mark)[i]? = some (n.fabric.mark leg) := by
    rw [List.getElem?_map, hleg]
    rfl
  have hchannel : leg.egress.channel = _ := h.climbs.channel_eq hmark
  have hcrossed := List.Sublist.count_le Link.globalKind
    ((List.take_sublist (i + 1) (legs.map n.fabric.mark)).filterMap Mark.wire)
  refine ⟨?_, ?_⟩
  · rw [hchannel, ← List.map_take, ← Fabric.wires_eq]
  · rw [hchannel]
    exact n.contains_add hc (lt_of_le_of_lt hcrossed h.count_lt)

end Itinerary

namespace Installation

variable {n : Installation} {met : Nat → Nat → Router} {c : TrafficClass} {q : Request}
  {network index limit : Nat} {k : Packet} {marks : List Mark}

section Ways

variable (hmet : n.Running met) (hc : n.plan.get network = .ok c) (hi : index < n.parameters.routerCount)
  (hk : k.Made n c index q)

include hmet hc hi hk

theorem itinerary_home (hhere : n.parameters.groupOf index = k.dest.group.toNat)
    (htarget : k.dest.target = k.dest.group) (hop : Nat) :
    ∃ marks, Itinerary n c index k marks ∧ n.fabric.Traces met (n.server k.dest) hop index k marks := by
  have hfirst := hk.contains_add hc (show 0 < _ by cases c.algorithm <;> decide)
  have h := traces_arrival hmet hc hk.routable hfirst hi hhere htarget hop
  rw [hk.channel_eq] at h
  exact ⟨_, .home hhere, h⟩

theorem itinerary_straight (haway : n.parameters.groupOf index ≠ k.dest.group.toNat)
    (htarget : k.dest.target = k.dest.group) (halternate : k.dest.alternate = k.dest.group)
    (hfew : c.algorithm = .valiant → n.parameters.groups < 3) (hop : Nat) :
    ∃ marks, Itinerary n c index k marks ∧ n.fabric.Traces met (n.server k.dest) hop index k marks := by
  have hfirst := hk.contains_add hc (show 0 < _ by cases c.algorithm <;> decide)
  have hsecond := hk.contains_add hc (show 1 < _ by cases c.algorithm <;> decide)
  have hahead : n.Ahead index k.dest.target.toNat k.slot.toNat :=
    ⟨hi, hk.routable.target_lt, htarget ▸ haway, hk.slot_lt⟩
  obtain ⟨aside, aside', h⟩ := traces_direct hmet hc hk.routable htarget hahead hk.origin_eq.symm
    (.alternate halternate) hfirst hsecond hop
  rw [hk.channel_eq] at h
  exact ⟨_, .direct haway hfew aside aside', h⟩

theorem itinerary_around (haway : n.parameters.groupOf index ≠ k.dest.group.toNat)
    (halgorithm : c.algorithm = .valiant) (htarget : k.dest.target = k.dest.alternate)
    (hsource : k.dest.alternate.toNat ≠ n.parameters.groupOf index) (hgroup : k.dest.alternate ≠ k.dest.group)
    (hop : Nat) :
    ∃ marks, Itinerary n c index k marks ∧ n.fabric.Traces met (n.server k.dest) hop index k marks := by
  have hfirst := hk.contains_add hc (show 0 < _ by cases c.algorithm <;> decide)
  have hsecond := hk.contains_add hc (show 1 < _ by cases c.algorithm <;> decide)
  have hthird := hk.contains_add hc (show 2 < _ by rw [halgorithm]; decide)
  have hne : k.dest.target ≠ k.dest.group := htarget ▸ hgroup
  have hahead : n.Ahead index k.dest.target.toNat k.slot.toNat :=
    ⟨hi, hk.routable.target_lt, by rw [htarget]; exact hsource.symm, hk.slot_lt⟩
  have hdecides := decides_settled c.algorithm hmet hi haway hahead.ne (.target hne) hop
  obtain ⟨aside, aside', aside'', h⟩ := traces_detour hmet hc hk.routable hfirst haway hk.origin_eq.symm hdecides
    hk.routable rfl rfl hne hahead hsecond hthird
  rw [hk.channel_eq, htarget] at h
  exact ⟨_, .around haway halgorithm htarget hsource hgroup aside aside' aside'', h⟩

theorem itinerary_either (haway : n.parameters.groupOf index ≠ k.dest.group.toNat)
    (halgorithm : c.algorithm = .adaptive) (htarget : k.dest.target = k.dest.group)
    (hlt : k.dest.alternate.toNat < n.parameters.groups)
    (hsource : k.dest.alternate.toNat ≠ n.parameters.groupOf index) (hgroup : k.dest.alternate ≠ k.dest.group)
    (hop : Nat) :
    ∃ marks, Itinerary n c index k marks ∧ n.fabric.Traces met (n.server k.dest) hop index k marks := by
  have hfirst := hk.contains_add hc (show 0 < _ by cases c.algorithm <;> decide)
  have hsecond := hk.contains_add hc (show 1 < _ by cases c.algorithm <;> decide)
  have hthird := hk.contains_add hc (show 2 < _ by rw [halgorithm]; decide)
  have hstraight : n.Ahead index k.dest.target.toNat k.slot.toNat :=
    ⟨hi, hk.routable.target_lt, htarget ▸ haway, hk.slot_lt⟩
  have haround : n.Ahead index k.dest.alternate.toNat k.otherSlot.toNat := ⟨hi, hlt, hsource.symm, hk.otherSlot_lt⟩
  rcases traces_either hmet hc hk.routable hfirst hk.origin_eq.symm htarget hstraight haround hgroup hsecond hthird
    hop with ⟨aside, aside', h⟩ | ⟨hesitates, aside, aside', aside'', h⟩
  · rw [hk.channel_eq] at h
    refine ⟨_, .direct haway (fun hvaliant => ?_) aside aside', h⟩
    rw [halgorithm] at hvaliant
    cases hvaliant
  · rw [hk.channel_eq] at h
    exact ⟨_, .turned haway halgorithm hsource hgroup hesitates aside aside' aside'', h⟩

end Ways

/-- **Every journey follows an itinerary**, whatever the states of the routers that it meets. -/
theorem itinerary (hmet : n.Running met) (hc : n.plan.get network = .ok c)
    (hi : index < n.parameters.routerCount) (hk : k.Entered n c index q) (hop : Nat) :
    ∃ marks, Itinerary n c index k marks ∧ n.fabric.Traces met (n.server k.dest) hop index k marks := by
  have hmade := hk.toMade
  by_cases hhere : n.parameters.groupOf index = k.dest.group.toNat
  · cases hk.way with
    | straight htarget => exact itinerary_home hmet hc hi hmade hhere htarget hop
    | around haway => exact absurd hhere haway
    | either _ htarget => exact itinerary_home hmet hc hi hmade hhere htarget hop
  · cases hk.way with
    | straight htarget halternate hfew =>
      refine itinerary_straight hmet hc hi hmade hhere htarget halternate (fun hvaliant => ?_) hop
      rcases hfew with hminimal | hfew | heq
      · rw [hvaliant] at hminimal
        cases hminimal
      · exact hfew
      · exact absurd heq hhere
    | around _ halgorithm htarget _ hsource hgroup =>
      exact itinerary_around hmet hc hi hmade hhere halgorithm htarget hsource hgroup hop
    | either halgorithm htarget hlt hsource hgroup =>
      exact itinerary_either hmet hc hi hmade hhere halgorithm htarget hlt hsource hgroup hop

/-- **A packet that entered is followed along an itinerary.** With a limit that is too low the journey is cut
short; with any other it comes to the host. -/
theorem exists_legs (hmet : n.Running met) (hc : n.plan.get network = .ok c)
    (hi : index < n.parameters.routerCount) (hk : k.Entered n c index q) (hop : Nat) :
    ∃ legs, Itinerary n c index k (legs.map n.fabric.mark) ∧
      ∀ limit, (n.fabric.follow met limit hop index k).1 = legs.take limit ∧
        (legs.length ≤ limit → n.fabric.follow met limit hop index k = (legs, .delivered (n.server k.dest))) := by
  obtain ⟨_, hmarks, legs, hlegs, rfl⟩ := itinerary hmet hc hi hk hop
  refine ⟨legs, hmarks, fun limit => ⟨?_, Fabric.follow_of_delivers hlegs⟩⟩
  have htake := n.fabric.follow_take met limit legs.length hop index k
  rwa [Fabric.follow_of_delivers hlegs (Nat.le_add_left legs.length limit)] at htake

/-! ### The host that is come to -/

/-- Where there are other groups, thirty-two bits hold every part of an address. -/
theorem counts_le (h : 1 < n.parameters.groups) :
    n.parameters.hosts ≤ 2 ^ 32 ∧ n.parameters.routers ≤ 2 ^ 32 := by
  have hfirst := n.firstExit_lt h
  have hhosts := n.checked.hosts_pos
  have hrouters := n.checked.routers_pos
  rw [Parameters.firstExit] at hfirst
  omega

/-- **The host is the one that was asked for**, where its address fits in thirty-two bits. -/
theorem server_eq (hk : k.Entered n c index q) (hd : q.destination < n.parameters.hostCount)
    (hhosts : n.parameters.hosts ≤ 2 ^ 32) (hrouters : n.parameters.routers ≤ 2 ^ 32) :
    n.server k.dest = q.destination := by
  rw [server, hk.group_eq, hk.toNat_router hrouters, hk.toNat_host hhosts]
  exact n.parameters.hostAt_parts (Nat.lt_trans hd (Word.wrap_lt _))

/-- The journey of a request with a limit that is not too low. -/
theorem exists_delivery (hmet : n.Running met) (hhosts : n.parameters.hosts ≤ 2 ^ 32)
    (hrouters : n.parameters.routers ≤ 2 ^ 32) (hs : q.source < n.parameters.hostCount)
    (hd : q.destination < n.parameters.hostCount) (hc : n.plan.get q.network = .ok c) :
    ∃ (k : Packet) (legs : List Leg), k.Entered n c (n.home q.source) q ∧
      Itinerary n c (n.home q.source) k (legs.map n.fabric.mark) ∧ n.fabric.Climbs c legs ∧
      ∀ limit, (legs.map n.fabric.mark).length ≤ limit →
        n.fabric.journey met limit q = .ok ⟨k, legs, .delivered q.destination⟩ := by
  have hi := Parameters.div_hosts_lt hs
  obtain ⟨k, hinject, hk⟩ := (hmet 0 _ hi).inject_spec hd hc
  obtain ⟨legs, hmarks, hlegs⟩ := exists_legs hmet hc hi hk 1
  refine ⟨k, legs, hk, hmarks, hmarks.climbs_legs hc, ?_⟩
  intro limit hlimit
  rw [List.length_map] at hlimit
  rw [Fabric.journey, fabric_parameters, hinject]
  dsimp only
  rw [(hlegs limit).2 hlimit, server_eq hk hd hhosts hrouters]

end Installation

end DragonflyFabric
