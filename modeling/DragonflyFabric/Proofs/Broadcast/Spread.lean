import DragonflyFabric.Proofs.Broadcast.Ports
import Mathlib.Data.Finset.Card
import Mathlib.Data.Multiset.UnionInter

/-!
# What is sent to every host

The copies of what is sent to every host, handled one at a time in any order: `Handles` is one of them, `Spreads`
a number of them one after another. The flood of a network is the order in which the copy that was sent last
comes first: `exists_floodFrom`.

* `Reached`: after some routers have handled a copy each, the copies on their way are those to the other routers
  whose next one on the straight way to the source is among them. `Reached.handle` keeps this.
* `broadcast_reaches_every_host`: whatever the order, it ends after as many copies as there are routers, and then
  every host but the source has got one copy.
-/

namespace DragonflyFabric

/-- What has become of the copies: those on their way, by the routers and ports they arrive at, the servers that
received one, once for each copy, and how many were sent to unconnected ports. -/
structure Copies where
  flying : Multiset (Nat × Nat)
  received : Multiset Nat
  lost : Nat

namespace Network

/-- One of the copies on their way is handled at its router. -/
inductive Handles (net : Network) (k : Packet) (copy : Nat × Nat) (c : Copies) : Copies → Prop
  | mk {r : Router} {ports : List Nat} {routers : List (Nat × Nat)} {servers : List Nat} {lost : Nat}
      (flies : copy ∈ c.flying) (router : net.router copy.1 = .ok r)
      (leaves : r.site.announcePorts copy.2 k = .ok ports)
      (spread : net.spread copy.1 ports = .ok (routers, servers, lost)) :
      Handles net k copy c ⟨c.flying.erase copy + routers, c.received + servers, c.lost + lost⟩

/-- So many copies are handled, one after another. -/
inductive Spreads (net : Network) (k : Packet) (start : Copies) : Nat → Copies → Prop
  | refl : Spreads net k start 0 start
  | tail {handled : Nat} {copy : Nat × Nat} {c c' : Copies} (before : Spreads net k start handled c)
      (last : net.Handles k copy c c') : Spreads net k start (handled + 1) c'

end Network

namespace Installation

/-- The state of the copies when each of the visited routers has handled one. -/
structure Reached (n : Installation) (source : Nat) (visited : Finset Nat) (c : Copies) : Prop where
  within : ∀ index ∈ visited, index < n.parameters.routerCount
  closed : ∀ index ∈ visited, index ≠ n.home source → n.straightNext index source 0 ∈ visited
  flying_nodup : c.flying.Nodup
  mem_flying_iff : ∀ index port, (index, port) ∈ c.flying ↔
    index < n.parameters.routerCount ∧ index ∉ visited ∧
      (index ≠ n.home source → n.straightNext index source 0 ∈ visited) ∧ port = n.straightPort index source 0
  received_nodup : c.received.Nodup
  mem_received_iff : ∀ host, host ∈ c.received ↔ n.home host ∈ visited ∧ host ≠ source
  lost_eq : c.lost = 0

variable {n : Installation} {net : Network} {source : Nat} {k : Packet} {visited : Finset Nat} {c c' : Copies}

/-- At first there is one copy, which comes from the source. -/
theorem reached_empty (hs : source < n.parameters.hostCount) :
    n.Reached source ∅ ⟨{(n.home source, source % n.parameters.hosts)}, 0, 0⟩ where
  within := fun _ h => absurd h (Finset.notMem_empty _)
  closed := fun _ h => absurd h (Finset.notMem_empty _)
  flying_nodup := Multiset.nodup_singleton _
  mem_flying_iff := by
    intro index port
    rw [Multiset.mem_singleton, Prod.mk.injEq]
    constructor
    · rintro ⟨rfl, rfl⟩
      exact ⟨Parameters.div_hosts_lt hs, Finset.notMem_empty _, fun h => absurd rfl h,
        (n.straightPort_home source 0).symm⟩
    · rintro ⟨-, -, hnext, rfl⟩
      have hhome : index = n.home source := by
        by_contra hne
        exact Finset.notMem_empty _ (hnext hne)
      rw [hhome, straightPort_home]
      exact ⟨rfl, rfl⟩
  received_nodup := Multiset.nodup_zero
  mem_received_iff := by
    intro host
    exact ⟨fun h => absurd h (Multiset.notMem_zero _), fun h => absurd h.1 (Finset.notMem_empty _)⟩
  lost_eq := rfl

section Visits

variable (hc : n.Reached source visited c) {index : Nat} {routers : List (Nat × Nat)} {servers : List Nat}
  (hcopy : (index, n.straightPort index source 0) ∈ c.flying)
  (hmem : ∀ next nextPort, (next, nextPort) ∈ routers ↔
    next < n.parameters.routerCount ∧ next ≠ n.home source ∧ n.straightNext next source 0 = index ∧
      nextPort = n.straightPort next source 0)

include hc hcopy hmem

/-- A router that was due before has its next router among the visited ones, and those that are due now have
not. -/
theorem Reached.disjoint_routers : Disjoint (c.flying.erase (index, n.straightPort index source 0)) routers := by
  refine Multiset.disjoint_left.mpr ?_
  rintro ⟨next, nextPort⟩ hold hsent
  obtain ⟨-, hne, hsame, -⟩ := (hmem next nextPort).mp (Multiset.mem_coe.mp hsent)
  have hdue := ((hc.mem_flying_iff next nextPort).mp (Multiset.mem_of_mem_erase hold)).2.2.1 hne
  rw [hsame] at hdue
  exact ((hc.mem_flying_iff _ _).mp hcopy).2.1 hdue

/-- The copies on their way when one more router is visited. -/
theorem Reached.mem_flying_visit (next nextPort : Nat) :
    (next, nextPort) ∈ c.flying.erase (index, n.straightPort index source 0) + routers ↔
      next < n.parameters.routerCount ∧ next ∉ insert index visited ∧
        (next ≠ n.home source → n.straightNext next source 0 ∈ insert index visited) ∧
        nextPort = n.straightPort next source 0 := by
  obtain ⟨-, hnew, hnext, -⟩ := (hc.mem_flying_iff _ _).mp hcopy
  rw [Multiset.mem_add, hc.flying_nodup.mem_erase_iff, Multiset.mem_coe, hmem, hc.mem_flying_iff, Ne,
    Prod.mk.injEq, Finset.mem_insert, Finset.mem_insert]
  constructor
  · rintro (⟨hother, hlt, hnot, hdue, rfl⟩ | ⟨hlt, hne, hsame, rfl⟩)
    · refine ⟨hlt, ?_, fun hne => .inr (hdue hne), rfl⟩
      rintro (rfl | hin)
      · exact hother ⟨rfl, rfl⟩
      · exact hnot hin
    · refine ⟨hlt, ?_, fun _ => .inl hsame, rfl⟩
      rintro (rfl | hin)
      · exact hnew (hsame ▸ hnext hne)
      · exact hnew (hsame ▸ hc.closed next hin hne)
  · rintro ⟨hlt, hnot, hdue, rfl⟩
    by_cases hold : next ≠ n.home source → n.straightNext next source 0 ∈ visited
    · exact .inl ⟨fun heq => hnot (.inl heq.1), hlt, fun hin => hnot (.inr hin), hold, rfl⟩
    · obtain ⟨hne, hnotIn⟩ := Classical.not_imp.mp hold
      exact .inr ⟨hlt, hne, (hdue hne).resolve_right hnotIn, rfl⟩

/-- One more router is visited: its copy is no longer on its way, but those are that it sent on. -/
theorem Reached.visit (hrouters : routers.Nodup) (hservers : servers.Nodup)
    (hmem' : ∀ host, host ∈ servers ↔ n.home host = index ∧ host ≠ source) :
    n.Reached source (insert index visited)
      ⟨c.flying.erase (index, n.straightPort index source 0) + routers, c.received + servers, c.lost⟩ := by
  obtain ⟨hi, hnew, hnext, -⟩ := (hc.mem_flying_iff _ _).mp hcopy
  refine ⟨?_, ?_, ?_, hc.mem_flying_visit hcopy hmem, ?_, ?_, hc.lost_eq⟩
  · intro other hother
    rcases Finset.mem_insert.mp hother with rfl | hother
    · exact hi
    · exact hc.within other hother
  · intro other hother hne
    apply Finset.mem_insert_of_mem
    rcases Finset.mem_insert.mp hother with rfl | hother
    · exact hnext hne
    · exact hc.closed other hother hne
  · exact Multiset.nodup_add.mpr
      ⟨hc.flying_nodup.erase _, Multiset.coe_nodup.mpr hrouters, hc.disjoint_routers hcopy hmem⟩
  · refine Multiset.nodup_add.mpr ⟨hc.received_nodup, Multiset.coe_nodup.mpr hservers, ?_⟩
    refine Multiset.disjoint_left.mpr ?_
    intro host hold hserved
    rw [Multiset.mem_coe, hmem'] at hserved
    rw [hc.mem_received_iff, hserved.1] at hold
    exact hnew hold.1
  · intro host
    rw [Multiset.mem_add, Multiset.mem_coe, hc.mem_received_iff, hmem', Finset.mem_insert, ← or_and_right, or_comm]

end Visits

section Steps

variable (h : net.InService n) (hs : source < n.parameters.hostCount) (hk : k.dest.isEveryone = true)
  (ho : k.origin.toNat = n.homeGroup source)

include h hs hk ho

/-- What a router makes of the copy that comes by the port of its straight way to the source. -/
theorem exists_spread {index : Nat} (hi : index < n.parameters.routerCount) :
    ∃ r ports routers servers, net.router index = .ok r ∧
      r.site.announcePorts (n.straightPort index source 0) k = .ok ports ∧
      net.spread index ports = .ok (routers, servers, 0) ∧
      routers.Nodup ∧ (∀ next nextPort, (next, nextPort) ∈ routers ↔
        next < n.parameters.routerCount ∧ next ≠ n.home source ∧ n.straightNext next source 0 = index ∧
          nextPort = n.straightPort next source 0) ∧
      servers.Nodup ∧ ∀ host, host ∈ servers ↔ n.home host = index ∧ host ≠ source := by
  obtain ⟨r, hrouter, hr⟩ := h.router_eq hi
  have hclass := classOf?_straightPort hi hs n.checked.links_pos
  obtain ⟨routers, servers, hspread, hrouters, hmem, hservers, hmem'⟩ :=
    h.spread_spec hi (nodup_copyPorts hi (n.homeGroup source) _ _) fun port hport => leads_somewhere hi hport
  refine ⟨r, _, routers, servers, hrouter, hr.announcePorts_eq hk hclass, by rw [ho]; exact hspread, hrouters, ?_,
    hservers, ?_⟩
  · exact fun next nextPort => (hmem next nextPort).trans (leads_on_iff hi hs hclass)
  · exact fun host => (hmem' host).trans (serves_iff hi hs hclass)

namespace Reached

/-- Every copy on its way can be handled. -/
theorem exists_handles (hc : n.Reached source visited c) {copy : Nat × Nat} (hcopy : copy ∈ c.flying) :
    ∃ c', net.Handles k copy c c' := by
  obtain ⟨hi, -, -, hport⟩ := (hc.mem_flying_iff copy.1 copy.2).mp hcopy
  obtain ⟨r, ports, routers, servers, hrouter, hports, hspread, -⟩ := exists_spread h hs hk ho hi
  rw [← hport] at hports
  exact ⟨_, .mk hcopy hrouter hports hspread⟩

/-- **A copy that is handled comes to a router for the first time**, and from there copies go on to those for
which it is the next one. -/
theorem handle (hc : n.Reached source visited c) {copy : Nat × Nat} (hstep : net.Handles k copy c c') :
    copy.1 ∉ visited ∧ n.Reached source (insert copy.1 visited) c' := by
  obtain ⟨index, port⟩ := copy
  cases hstep with
  | mk flies router leaves spread =>
    obtain ⟨hi, hnew, hnext, rfl⟩ := (hc.mem_flying_iff index port).mp flies
    obtain ⟨r, ports, routers, servers, hrouter, hports, hspread, hrouters, hmem, hservers, hmem'⟩ :=
      exists_spread h hs hk ho hi
    rw [hrouter] at router
    cases router
    rw [hports] at leaves
    cases leaves
    rw [hspread] at spread
    cases spread
    exact ⟨hnew, hc.visit flies hmem hrouters hservers hmem'⟩

/-- So do all that are handled one after another: each of them visits another router. -/
theorem of_spreads {start : Copies} (hc : n.Reached source visited start) {handled : Nat}
    (hrun : net.Spreads k start handled c) :
    ∃ visited', visited'.card = visited.card + handled ∧ n.Reached source visited' c := by
  induction hrun with
  | refl => exact ⟨visited, rfl, hc⟩
  | tail _ hstep ih =>
    obtain ⟨visited', hcard, hreached⟩ := ih
    obtain ⟨hnew, hnext⟩ := hreached.handle h hs hk ho hstep
    exact ⟨_, by rw [Finset.card_insert_of_notMem hnew, hcard, Nat.add_assoc], hnext⟩

end Reached

end Steps

namespace Reached

/-- There are no more visits than routers. -/
theorem card_le (hc : n.Reached source visited c) : visited.card ≤ n.parameters.routerCount := by
  rw [← Finset.card_range n.parameters.routerCount]
  exact Finset.card_le_card fun index hindex => Finset.mem_range.mpr (hc.within index hindex)

/-- When no copy is on its way, every router was visited: along its straight way it follows from the router of
the source. -/
theorem visited_eq (hc : n.Reached source visited c) (hs : source < n.parameters.hostCount) (hdone : c.flying = 0) :
    visited = Finset.range n.parameters.routerCount := by
  have hnone : ∀ index, index < n.parameters.routerCount →
      (index ≠ n.home source → n.straightNext index source 0 ∈ visited) → index ∈ visited := by
    intro index hi hnext
    by_contra hnot
    have hdue := (hc.mem_flying_iff index _).mpr ⟨hi, hnot, hnext, rfl⟩
    rw [hdone] at hdue
    exact Multiset.notMem_zero _ hdue
  ext index
  rw [Finset.mem_range]
  refine ⟨hc.within index, fun hi => ?_⟩
  obtain ⟨way, -, hway⟩ := exists_straight hi hs n.checked.links_pos
  induction hway with
  | arrived => exact hnone _ hi fun hne => absurd rfl hne
  | next _ _ ih => exact hnone _ hi fun _ => ih (straightNext_lt hi hs n.checked.links_pos)

/-- Then every host but the source has received one copy. -/
theorem count_received (hc : n.Reached source visited c) (hs : source < n.parameters.hostCount)
    (hdone : c.flying = 0) (host : Nat) :
    c.received.count host = if host < n.parameters.hostCount ∧ host ≠ source then 1 else 0 := by
  rw [Multiset.count_eq_of_nodup hc.received_nodup]
  refine if_congr ?_ rfl rfl
  rw [hc.mem_received_iff, hc.visited_eq hs hdone, Finset.mem_range,
    Parameters.home_lt_iff (n.hosts_lt hs) n.checked.hosts_pos]

end Reached

end Installation

namespace Network

variable {n : Installation} {net : Network} {q : Request}

/-- What the router of the source makes of a request to every host. -/
theorem InService.announce_eq (h : net.InService n) (hs : q.source < n.parameters.hostCount)
    (hq : q.destination = broadcastDestination) :
    ∃ r k, net.router (n.home q.source) = .ok r ∧ r.site.announce q = .ok k ∧ k.dest.isEveryone = true ∧
      k.origin.toNat = n.homeGroup q.source := by
  obtain ⟨r, hrouter, hr⟩ := h.router_eq (Parameters.div_hosts_lt hs)
  refine ⟨r, _, hrouter, by rw [Site.announce, if_pos hq]; rfl, rfl, ?_⟩
  show (UInt32.ofNat r.site.group).toNat = _
  rw [hr.group_eq, Installation.toNat_group hr.group_lt]

/-- **What is sent to every host comes to each one but the source, and to each of them once**, in whatever order
the copies are handled. Each of them can be handled, none is lost, and none is left when every router has handled
one. -/
theorem broadcast_reaches_every_host (h : net.InService n) (hs : q.source < n.parameters.hostCount)
    (hq : q.destination = broadcastDestination) :
    ∃ r k, net.router (n.home q.source) = .ok r ∧ r.site.announce q = .ok k ∧
      ∀ handled c, net.Spreads k ⟨{(n.home q.source, q.source % n.parameters.hosts)}, 0, 0⟩ handled c →
        handled ≤ n.parameters.routerCount ∧ c.lost = 0 ∧ (∀ copy ∈ c.flying, ∃ c', net.Handles k copy c c') ∧
        (c.flying = 0 → handled = n.parameters.routerCount ∧ ∀ host, c.received.count host =
          if host < n.parameters.hostCount ∧ host ≠ q.source then 1 else 0) := by
  obtain ⟨r, k, hrouter, hannounce, hk, ho⟩ := h.announce_eq hs hq
  refine ⟨r, k, hrouter, hannounce, fun handled c hrun => ?_⟩
  obtain ⟨visited, hcard, hc⟩ := (Installation.reached_empty hs).of_spreads h hs hk ho hrun
  rw [Finset.card_empty, Nat.zero_add] at hcard
  refine ⟨by rw [← hcard]; exact hc.card_le, hc.lost_eq, fun copy hcopy => hc.exists_handles h hs hk ho hcopy, ?_⟩
  intro hdone
  refine ⟨?_, hc.count_received hs hdone⟩
  rw [← hcard, hc.visited_eq hs hdone, Finset.card_range]

theorem broadcast_reaches_every_host_sample :
    0 < Installation.sample.parameters.hostCount ∧
      ∃ r k, (ofInstallation .sample).router 0 = .ok r ∧ r.site.announce ⟨0, broadcastDestination, 0, 64⟩ = .ok k ∧
        ∀ handled c, (ofInstallation .sample).Spreads k ⟨{(0, 0)}, 0, 0⟩ handled c →
          handled ≤ 6 ∧ c.lost = 0 ∧ (∀ copy ∈ c.flying, ∃ c', (ofInstallation .sample).Handles k copy c c') ∧
          (c.flying = 0 → handled = 6 ∧ ∀ host, c.received.count host = if host < 6 ∧ host ≠ 0 then 1 else 0) :=
  ⟨by decide, broadcast_reaches_every_host (q := ⟨0, broadcastDestination, 0, 64⟩) (inService_ofInstallation .sample)
    (by decide) rfl⟩

/-! ### The flood of a network -/

/-- The copy that is handled first may be put in front. -/
theorem Spreads.head {k : Packet} {start c c' : Copies} {copy : Nat × Nat} {handled : Nat}
    (first : net.Handles k copy start c) (rest : net.Spreads k c handled c') :
    net.Spreads k start (handled + 1) c' := by
  induction rest with
  | refl => exact .tail .refl first
  | tail _ last ih => exact .tail ih last

/-- The copies that one of them leaves behind, with those that it sent put in front of the others. -/
theorem copies_eq (copy : Nat × Nat) (flying routers : List (Nat × Nat)) (received servers : List Nat) (lost : Nat) :
    (⟨((copy :: flying : List (Nat × Nat)) : Multiset (Nat × Nat)).erase copy + (routers : Multiset (Nat × Nat)),
        (received : Multiset Nat) + (servers : Multiset Nat), lost⟩ : Copies) =
      ⟨((routers.reverse ++ flying : List (Nat × Nat)) : Multiset (Nat × Nat)),
        ((received ++ servers : List Nat) : Multiset Nat), lost⟩ := by
  have hperm : (flying ++ routers).Perm (routers.reverse ++ flying) :=
    List.perm_append_comm.trans ((List.reverse_perm routers).symm.append_right flying)
  rw [← Multiset.cons_coe, Multiset.erase_cons_head, Multiset.coe_add, Multiset.coe_add, Multiset.coe_eq_coe.mpr hperm]

/-- **The flood of a network is one of these orders**: it handles the copy that was sent last first. -/
theorem exists_floodFrom (h : net.InService n) {source : Nat} (hs : source < n.parameters.hostCount) {k : Packet}
    (hk : k.dest.isEveryone = true) (ho : k.origin.toNat = n.homeGroup source) (copies : Nat) {visited : Finset Nat}
    {flying : List (Nat × Nat)} {f : Flood} (hc : n.Reached source visited ⟨flying, f.received, f.lost⟩) :
    ∃ f' handled rest, net.floodFrom k copies flying f = .ok f' ∧
      net.Spreads k ⟨flying, f.received, f.lost⟩ handled ⟨rest, f'.received, f'.lost⟩ ∧
      (handled < copies → rest = 0) := by
  induction copies generalizing visited flying f with
  | zero => exact ⟨f, 0, flying, rfl, .refl, fun hlt => absurd hlt (Nat.lt_irrefl 0)⟩
  | succ copies ih =>
    cases flying with
    | nil => exact ⟨f, 0, 0, rfl, .refl, fun _ => rfl⟩
    | cons copy flying =>
      have hcopy : copy ∈ ((copy :: flying : List (Nat × Nat)) : Multiset (Nat × Nat)) := List.mem_cons_self
      obtain ⟨hi, -, -, hport⟩ := (hc.mem_flying_iff copy.1 copy.2).mp hcopy
      obtain ⟨r, ports, routers, servers, hrouter, hports, hspread, -⟩ := Installation.exists_spread h hs hk ho hi
      rw [← hport] at hports
      have hstep := Handles.mk (c := ⟨(copy :: flying : List (Nat × Nat)), f.received, f.lost⟩) hcopy hrouter hports
        hspread
      rw [copies_eq] at hstep
      obtain ⟨f', handled, rest, hflood, hrun, hrest⟩ := ih
        (f := ⟨f.visits ++ [copy], f.received ++ servers, f.lost + 0⟩) (hc.handle h hs hk ho hstep).2
      refine ⟨f', handled + 1, rest, ?_, hrun.head hstep, fun hlt => hrest (Nat.lt_of_succ_lt_succ hlt)⟩
      rw [floodFrom, hrouter]
      dsimp only [bind, Except.bind]
      rw [hports]
      dsimp only
      rw [hspread]
      exact hflood

/-- **The flood reaches every host but the source once**, where there are no more routers than it handles
copies. -/
theorem flood_reaches_every_host (h : net.InService n) (hs : q.source < n.parameters.hostCount)
    (hq : q.destination = broadcastDestination) (hfew : n.parameters.routerCount < 2000) :
    ∃ r k f, net.router (n.home q.source) = .ok r ∧ r.site.announce q = .ok k ∧
      net.flood k (n.home q.source) (q.source % n.parameters.hosts) = .ok f ∧ f.lost = 0 ∧
      ∀ host, f.received.count host = if host < n.parameters.hostCount ∧ host ≠ q.source then 1 else 0 := by
  obtain ⟨r, k, hrouter, hannounce, hk, ho⟩ := h.announce_eq hs hq
  obtain ⟨f, handled, rest, hflood, hrun, hrest⟩ := exists_floodFrom h hs hk ho 2000
    (f := ⟨[], [], 0⟩) (Installation.reached_empty hs)
  obtain ⟨visited, hcard, hc⟩ := (Installation.reached_empty hs).of_spreads h hs hk ho hrun
  rw [Finset.card_empty, Nat.zero_add] at hcard
  have hdone : rest = 0 := hrest (lt_of_le_of_lt (hcard ▸ hc.card_le) hfew)
  refine ⟨r, k, f, hrouter, hannounce, hflood, hc.lost_eq, fun host => ?_⟩
  rw [← Multiset.coe_count]
  exact hc.count_received hs hdone host

end Network

end DragonflyFabric
