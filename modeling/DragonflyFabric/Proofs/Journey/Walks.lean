import DragonflyFabric.Proofs.Journey.Itinerary

/-!
# Walks are journeys

A walk in a network is a journey that meets the routers in the states in which the network has them.

* `inService_of_build`: a network that was built is in service.
* `walkFrom_eq`: a walk in it is a journey, and leaves it in service.
* `walk_delivers`: the walk of a packet that entered comes to its host.
-/

namespace DragonflyFabric

/-! ### Where wires lead -/

theorem LinkMap.row_lt_of_link? {m : LinkMap} {p : Parameters} {position index row slot : Nat}
    (h : m.link? p position index = some (row, slot)) (hp : 0 < p.rows) : row < p.rows := by
  rw [link?] at h
  split at h
  · split at h
    · cases h
    · cases h
      exact Nat.mod_lt _ hp
  · cases h

/-- A wire between groups leads to a router of the network. -/
theorem Installation.across_lt (n : Installation) {router port next nextPort row slot : Nat}
    (hr : router < n.parameters.routerCount) (hclass : n.parameters.classOf? port = some .exit)
    (hserved : n.fabric.servedBy (n.parameters.positionOf router) port = some (row, slot))
    (h : n.fabric.across (n.parameters.groupOf router) row slot = .router next nextPort) :
    next < n.parameters.routerCount := by
  obtain ⟨e, hlookup, rfl, -⟩ := Fabric.lookup_of_across h
  rw [fabric_table] at hlookup
  have hrows : 0 < n.parameters.rows := by
    have hlt := (ExitTable.View.lt_of_lookup hlookup).1
    rw [(ExitTable.View.size_of_ofLinkMap n.table_eq).1] at hlt
    exact Nat.zero_lt_of_lt hlt
  have hrow : row < n.parameters.rows := by
    obtain ⟨hfirst, hend⟩ := (Parameters.classOf?_exit_iff n.checked.hosts_pos n.checked.routers_pos).mp hclass
    have hport : port = n.parameters.exitPort (port - n.parameters.firstExit) := (Nat.add_sub_of_le hfirst).symm
    rw [Parameters.portEnd] at hend
    rw [hport, n.servedBy_exitPort (Parameters.positionOf_lt n.checked.routers_pos router) (by omega)] at hserved
    exact LinkMap.row_lt_of_link? hserved hrows
  rw [fabric_parameters, fabric_numbering]
  have hgroup := Numbering.groupAt_lt n.inWords (Parameters.groupOf_lt hr) hrow
  exact Parameters.routerAt_lt hgroup (n.router_lt_of_lookup hlookup)

/-- A router is wired to routers of the network only. -/
theorem Installation.link_lt (n : Installation) {router port next nextPort : Nat}
    (hr : router < n.parameters.routerCount) (h : (n.fabric.link router port).peer = .router next nextPort) :
    next < n.parameters.routerCount := by
  cases hclass : n.parameters.classOf? port with
  | none =>
    simp only [Fabric.link, fabric_parameters, hclass] at h
    cases h
  | some kind =>
    cases kind with
    | host =>
      simp only [Fabric.link, fabric_parameters, hclass] at h
      cases h
    | sibling =>
      simp only [Fabric.link, fabric_parameters, hclass] at h
      cases h
      have hposition := Parameters.positionOf_lt n.checked.routers_pos router
      exact Parameters.routerAt_lt (Parameters.groupOf_lt hr) (Parameters.siblingBehind_lt hclass hposition)
    | exit =>
      have hclass' : n.fabric.parameters.classOf? port = some .exit := by rw [fabric_parameters, hclass]
      cases hserved : n.fabric.servedBy (n.fabric.parameters.positionOf router) port with
      | none =>
        rw [Fabric.link_of_idle hclass' hserved] at h
        cases h
      | some served =>
        rw [Fabric.link_of_servedBy hclass' hserved, fabric_parameters] at h
        rw [fabric_parameters] at hserved
        exact n.across_lt hr hclass hserved h

/-! ### Networks in service -/

namespace Network

/-- A wired network over an installation whose routers are in service. -/
structure InService (net : Network) (n : Installation) : Prop where
  settings_eq : net.settings = n.settings
  fabric_eq : net.fabric = some n.fabric
  routers : ∀ index, index < n.parameters.routerCount →
    ∃ r, net.routers[index]? = some r ∧ r.InService n index

variable {net : Network} {n : Installation} {r : Router} {index limit hop : Nat} {k : Packet}

theorem InService.setRouter (h : net.InService n) (hr : r.InService n index) :
    (net.setRouter index r).InService n := by
  refine ⟨h.settings_eq, h.fabric_eq, ?_⟩
  intro other hother
  obtain ⟨found, hfound, hin⟩ := h.routers other hother
  rw [Network.setRouter]
  dsimp only
  rw [Array.getElem?_setIfInBounds]
  by_cases heq : index = other
  · subst heq
    rw [if_pos rfl, if_pos (Array.getElem?_eq_some_iff.mp hfound).1]
    exact ⟨r, rfl, hr⟩
  · rw [if_neg heq]
    exact ⟨found, hfound, hin⟩

theorem InService.router_eq (h : net.InService n) (hi : index < n.parameters.routerCount) :
    ∃ r, net.router index = .ok r ∧ r.InService n index := by
  obtain ⟨r, hr, hin⟩ := h.routers index hi
  refine ⟨r, ?_, hin⟩
  rw [Network.router, hr]
  rfl

end Network

namespace Fabric

variable {f : Fabric} {met met' : Nat → Nat → Router}

/-- A journey does not depend on the states in which routers are met before it starts. -/
theorem follow_congr (limit : Nat) {hop : Nat} (h : ∀ later, hop ≤ later → met later = met' later) (index : Nat)
    (k : Packet) : f.follow met limit hop index k = f.follow met' limit hop index k := by
  induction limit generalizing hop index k with
  | zero => rfl
  | succ limit ih =>
    rw [follow, follow, h hop (Nat.le_refl _)]
    split
    · rfl
    · dsimp only
      split
      · rfl
      · rfl
      · rw [ih fun later hlater => h later (Nat.le_of_succ_le hlater)]

end Fabric

/-- The states in which routers are met, with one router at one hop in another. -/
def meet (met : Nat → Nat → Router) (hop index : Nat) (r : Router) : Nat → Nat → Router :=
  Function.update met hop (Function.update (met hop) index r)

theorem meet_self (met : Nat → Nat → Router) (hop index : Nat) (r : Router) : meet met hop index r hop index = r := by
  rw [meet, Function.update_self, Function.update_self]

theorem meet_later (met : Nat → Nat → Router) {hop later : Nat} (h : hop < later) (index : Nat) (r : Router) :
    meet met hop index r later = met later :=
  Function.update_of_ne (by omega) _ _

theorem Installation.Running.meet {n : Installation} {met : Nat → Nat → Router} (hmet : n.Running met)
    {index : Nat} {r : Router} (hr : r.InService n index) (hop : Nat) : n.Running (meet met hop index r) := by
  intro hop' index' hi
  rw [DragonflyFabric.meet]
  by_cases hhop : hop' = hop
  · subst hhop
    rw [Function.update_self]
    by_cases hindex : index' = index
    · subst hindex
      rwa [Function.update_self]
    · rw [Function.update_of_ne hindex]
      exact hmet hop' index' hi
  · rw [Function.update_of_ne hhop]
    exact hmet hop' index' hi

namespace Network

variable {net : Network} {n : Installation} {index : Nat}

/-- The hop of a leg. -/
def hopOf (l : Leg) : Hop := ⟨l.router, l.before.dest.target, l.egress⟩

/-- What `handle` does at a router in service. -/
theorem InService.handle_eq (h : net.InService n) (hi : index < n.parameters.routerCount) (k : Packet) :
    ∃ r, r.InService n index ∧
      net.handle index k (Transit.forwardSeen k.channel) =
        .ok (((Transit.forwardSeen k.channel).run ⟨r, k⟩).1, ((Transit.forwardSeen k.channel).run ⟨r, k⟩).2.packet,
          net.setRouter index ((Transit.forwardSeen k.channel).run ⟨r, k⟩).2.router) := by
  obtain ⟨r, hrouter, hr⟩ := h.router_eq hi
  refine ⟨r, hr, ?_⟩
  rw [handle, hrouter]
  rfl

theorem InService.peer_eq (h : net.InService n) (router port : Nat) :
    net.peer router port = .ok (n.fabric.link router port).peer := by
  rw [peer, h.fabric_eq]

/-- **A walk is a journey** that meets each router as the network has it, and it leaves the network in
service. -/
theorem walkFrom_eq (h : net.InService n) (hi : index < n.parameters.routerCount) (limit hop : Nat) (k : Packet) :
    ∃ met, n.Running met ∧ ∃ k' net', net'.InService n ∧
      walkFrom limit net index k =
        .ok ⟨(n.fabric.follow met limit hop index k).1.map hopOf, (n.fabric.follow met limit hop index k).2, k',
          net'⟩ := by
  induction limit generalizing net hop index k with
  | zero => exact ⟨_, n.running_new, k, net, h, rfl⟩
  | succ limit ih =>
    obtain ⟨r, hr, hhandle⟩ := h.handle_eq hi k
    have hnext := h.setRouter (hr.forwardSeen (t := ⟨r, k⟩) k.channel)
    rw [walkFrom, hhandle]
    dsimp only [bind, Except.bind]
    rcases hrun : (Transit.forwardSeen k.channel).run ⟨r, k⟩ with ⟨result, t⟩
    rw [hrun] at hnext
    have hmeet (met : Nat → Nat → Router) :
        (Transit.forwardSeen k.channel).run ⟨meet met hop index r hop index, k⟩ = (result, t) := by
      rw [meet_self, hrun]
    cases result with
    | error why =>
      refine ⟨meet _ hop index r, n.running_new.meet hr hop, t.packet, _, hnext, ?_⟩
      rw [Fabric.follow_of_error (hmeet _)]
      rfl
    | ok egress =>
      dsimp only
      rw [hnext.peer_eq]
      dsimp only
      cases hpeer : (n.fabric.link index egress.port).peer with
      | server server =>
        refine ⟨meet _ hop index r, n.running_new.meet hr hop, t.packet, _, hnext, ?_⟩
        rw [Fabric.follow_of_server (hmeet _) hpeer]
        rfl
      | nothing =>
        refine ⟨meet _ hop index r, n.running_new.meet hr hop, t.packet, _, hnext, ?_⟩
        rw [Fabric.follow_of_nothing (hmeet _) hpeer]
        rfl
      | router next nextPort =>
        obtain ⟨met, hmet, k', net', hnet', hrest⟩ := ih hnext (n.link_lt hi hpeer) (hop + 1) t.packet
        refine ⟨meet met hop index r, hmet.meet hr hop, k', net', hnet', ?_⟩
        -- The rest of the walk meets routers at later hops only.
        have hcongr : n.fabric.follow (meet met hop index r) limit (hop + 1) next t.packet =
            n.fabric.follow met limit (hop + 1) next t.packet :=
          Fabric.follow_congr limit (fun later hlater => meet_later met (Nat.lt_of_succ_le hlater) index r) _ _
        rw [Fabric.follow_of_router (hmeet _) hpeer, hcongr]
        dsimp only
        rw [hrest]
        rfl

/-- **A wired network that was built is in service.** -/
theorem inService_of_build {v : Language.Value} {s : Settings} {spare : Nat}
    (hread : (Settings.ofValue v).result = .ok s) (hbuild : (build s true spare).result = .ok net) :
    ∃ n : Installation, n.settings = s ∧ net.InService n := by
  have hrun : (build s true spare).run #[] = (.ok net, ((build s true spare).run #[]).2) := Prod.ext hbuild rfl
  rw [build] at hrun
  obtain ⟨table, _, hlift, hrun⟩ := ok_of_run_bind hrun
  obtain ⟨htable, rfl⟩ := ok_of_run_liftM hlift
  dsimp only at hrun
  rw [if_pos rfl, map_eq_pure_bind] at hrun
  obtain ⟨wired, _, hwired, hrun⟩ := ok_of_run_bind hrun
  obtain ⟨fabric, _, hfabric, hwired⟩ := ok_of_run_bind hwired
  cases hwired
  obtain ⟨plan, _, hplan, hrun⟩ := ok_of_run_bind hrun
  obtain ⟨routers, _, hrouters, hrun⟩ := ok_of_run_bind hrun
  cases hrun
  have hplan := (ok_of_run_liftM hplan).1
  have hrouters := (ok_of_run_liftM hrouters).1
  let n : Installation := ⟨s, table, fabric, plan, ⟨v, hread⟩, htable, congrArg Prod.fst hfabric, hplan⟩
  refine ⟨n, rfl, rfl, rfl, ?_⟩
  intro index hi
  obtain ⟨r, hr, hinstall⟩ := getElem?_of_mapM_ok hrouters (List.getElem?_range hi)
  refine ⟨r, ?_, .install (n := n) hinstall⟩
  rw [List.getElem?_toArray, hr]

/-- The network of an installation, as its routers were installed. -/
def ofInstallation (n : Installation) : Network where
  settings := n.settings
  table := n.table
  fabric := some n.fabric
  routers := (Array.range n.parameters.routerCount).map fun index => n.newRouter index n.plan.total

theorem inService_ofInstallation (n : Installation) : (ofInstallation n).InService n := by
  refine ⟨rfl, rfl, fun index hi => ⟨_, ?_, n.running_new 0 index hi⟩⟩
  rw [ofInstallation, Array.getElem?_map, Array.getElem?_range, if_pos hi]
  rfl

/-- **A packet that entered comes to its host**, whatever has passed through the network before. -/
theorem walk_delivers {c : TrafficClass} {network : Nat} {k : Packet} (h : net.InService n)
    (hc : n.plan.get network = .ok c) (hs : k.request.source < n.parameters.hostCount)
    (hk : k.Entered n c (n.home k.request.source) k.request) :
    ∃ w, net.walk k = .ok w ∧ w.ending = .delivered (n.server k.dest) ∧ w.network.InService n := by
  have hi := Parameters.div_hosts_lt hs
  obtain ⟨met, hmet, k', net', hnet', hwalk⟩ := walkFrom_eq h hi 12 1 k
  obtain ⟨legs, hmarks, hlegs⟩ := Installation.exists_legs hmet hc hi hk 1
  have hlength : legs.length ≤ 12 := by
    rw [← List.length_map n.fabric.mark]
    exact Nat.le_trans hmarks.length_le (by decide)
  rw [(hlegs 12).2 hlength] at hwalk
  rw [walk, h.settings_eq]
  exact ⟨_, hwalk, rfl, hnet'⟩

end Network

end DragonflyFabric
