import DragonflyFabric.Proofs.Cells
import DragonflyFabric.Proofs.Wiring.Search
import Mathlib.Order.Bounds.Basic

/-!
# Without weights, distances are exact

Where all wires count the same, a search that has come to its end has been at every distance below one that it found,
so that it takes fewer wires to a router than there are routers (`Search.Sorted.exists_hops_lt`). A router that some
way leads to is therefore never taken for one that cannot be reached, as long as the wires to all routers can be
counted in a word: `Search.Sorted.mem_iff_exists_way`. Without weights, the distance found of it is that of a shortest
way: `Search.Sorted.isDistance`.

`shortest_ways` says so of a single search, of the distances between all routers and of the greatest of them.
-/

namespace DragonflyFabric.Wiring

variable {w : Wiring} {weights : Option (Array Nat)} {origin router other read d : Nat}

/-- A way of so many wires, each of them one that a search with these weights goes along. -/
inductive Hops (w : Wiring) (weights : Option (Array Nat)) (origin : Nat) : Nat → Nat → Prop
  | start : Hops w weights origin origin 0
  | on {router other hops weight : Nat} (h : Hops w weights origin router hops)
      (hwire : w.Wire weights router other weight) : Hops w weights origin other (hops + 1)

section Uniform

variable {x : Nat} (hx : Uniform weights x)

include hx

theorem Hops.way {hops : Nat} (h : w.Hops weights origin router hops) : w.Way weights origin router (x * hops) := by
  induction h with
  | start => exact .start
  | @on router other hops weight _ hwire ih =>
    have ⟨_, _, kind, _, _, hweight⟩ := hwire
    obtain rfl := hx kind weight hweight
    rw [Nat.mul_succ]
    exact .on ih hwire

/-- Where all wires count the same, a way counts as much as it has wires, times that. -/
theorem Way.exists_hops {cost : Nat} (h : w.Way weights origin router cost) :
    ∃ hops, cost = x * hops ∧ w.Hops weights origin router hops := by
  induction h with
  | start => exact ⟨0, rfl, .start⟩
  | @on router other cost weight _ hwire ih =>
    have ⟨_, _, kind, _, _, hweight⟩ := hwire
    obtain ⟨hops, rfl, hhops⟩ := ih
    exact ⟨hops + 1, by rw [Nat.mul_succ, hx kind weight hweight], .on hhops hwire⟩

end Uniform

/-- How far a router is from the origin, in wires: as the shortest way there, or out of reach. -/
inductive IsDistance (w : Wiring) (origin router : Nat) : Nat → Prop
  | reached {d : Nat} (hleast : IsLeast {cost | w.Way none origin router cost} d) (hlt : d < unreached) :
    IsDistance w origin router d
  | unreached (hnone : ∀ cost, ¬ w.Way none origin router cost) : IsDistance w origin router unreached

theorem IsDistance.unique {d' : Nat} (h : w.IsDistance origin router d) (h' : w.IsDistance origin router d') :
    d = d' := by
  cases h with
  | reached hleast =>
    cases h' with
    | reached hleast' => exact hleast.unique hleast'
    | unreached hnone => exact absurd hleast.1 (hnone d)
  | unreached hnone =>
    cases h' with
    | reached hleast' => exact absurd hleast'.1 (hnone d')
    | unreached => rfl

theorem IsDistance.le (h : w.IsDistance origin router d) : d ≤ Wiring.unreached := by
  cases h with
  | reached _ hlt => exact Nat.le_of_lt hlt
  | unreached => exact Nat.le_refl _

theorem IsDistance.eq_unreached_iff (h : w.IsDistance origin router d) :
    d = Wiring.unreached ↔ ∀ cost, ¬ w.Way none origin router cost := by
  cases h with
  | reached hleast hlt => exact ⟨fun heq => absurd heq (Nat.ne_of_lt hlt), fun hnone => absurd hleast.1 (hnone d)⟩
  | unreached hnone => exact ⟨fun _ => hnone, fun _ => rfl⟩

/-! ### One search -/

namespace Search

variable {s : Search}

section Ended

variable {x : Nat} (h : s.Sorted w weights origin x read) (hend : s.queue.size ≤ read)

include h hend

/-- One wire leads at most `x` further. -/
theorem Sorted.distance_le_add {weight : Nat} (hin : router ∈ s.queue)
    (hwire : w.Wire weights router other weight) : s.distance other ≤ s.distance router + x := by
  obtain ⟨i, hi⟩ := Array.mem_iff_getElem?.mp hin
  have hlt := (Array.getElem?_eq_some_iff.mp hi).1
  exact h.looked i (by omega) router other weight hi hwire

variable (hx : Uniform weights x)

include hx

/-- A shortest way has been at every distance up to its own. -/
theorem Sorted.exists_distance_eq {hops : Nat} (hway : w.Hops weights origin router hops) (hin : router ∈ s.queue)
    (hcost : s.distance router = x * hops) : ∀ d ≤ hops, ∃ at_d ∈ s.queue, s.distance at_d = x * d := by
  induction hway with
  | start =>
    intro d hd
    obtain rfl := Nat.le_zero.mp hd
    exact ⟨origin, hin, hcost⟩
  | @on router other hops weight hway hwire ih =>
    have hle := h.distance_le_of_way hend hx (hway.way hx)
    have hother := (h.mem_queue_iff other).mp hin
    rw [Nat.mul_succ] at hcost
    have hrouter : router ∈ s.queue := (h.mem_queue_iff router).mpr (by omega)
    have hstep := h.distance_le_add hend hrouter hwire
    intro d hd
    rcases Nat.le_succ_iff.mp hd with hd | rfl
    · exact ih hrouter (by omega) d hd
    · exact ⟨other, hin, by rw [hcost, Nat.mul_succ]⟩

/-- A router that was reached takes fewer wires than routers were reached. -/
theorem Sorted.exists_hops_lt (hin : router ∈ s.queue) :
    ∃ hops < s.queue.size, s.distance router = x * hops := by
  obtain ⟨hops, hcost, hway⟩ := (h.way router hin).exists_hops hx
  rcases Nat.eq_zero_or_pos x with rfl | hpos
  · exact ⟨0, Array.size_pos_of_mem hin, by simpa using hcost⟩
  refine ⟨hops, ?_, hcost⟩
  have hall := h.exists_distance_eq hend hx hway hin hcost
  have hsub : (List.range (hops + 1)).map (x * ·) ⊆ s.queue.toList.map s.distance := by
    intro d hd
    obtain ⟨d, hle, rfl⟩ := List.mem_map.mp hd
    obtain ⟨at_d, hmem, hat⟩ := hall d (Nat.lt_succ_iff.mp (List.mem_range.mp hle))
    exact hat ▸ List.mem_map_of_mem (Array.mem_toList_iff.mpr hmem)
  have hnodup : ((List.range (hops + 1)).map (x * ·)).Nodup :=
    List.Pairwise.map _ (fun _ _ hne heq => hne (Nat.eq_of_mul_eq_mul_left hpos heq)) List.nodup_range
  have hlength := (List.subperm_of_subset hnodup hsub).length_le
  rwa [List.length_map, List.length_range, List.length_map, Array.length_toList] at hlength

variable (hn : x * (w.routerCount - 1) < unreached) (hw : w.Described)

include hn hw

/-- A wire from a router that was reached leads to one that was reached. -/
theorem Sorted.mem_of_wire {weight : Nat} (hin : router ∈ s.queue) (hwire : w.Wire weights router other weight) :
    other ∈ s.queue := by
  by_contra hnot
  have hstep := h.distance_le_add hend hin hwire
  obtain ⟨hops, hlt, hcost⟩ := h.exists_hops_lt hend hx hin
  have hfar : unreached ≤ s.distance other :=
    Nat.not_lt.mp fun hlt => hnot ((h.mem_queue_iff other).mpr hlt)
  obtain ⟨port, otherPort, kind, hport, hlink, -⟩ := hwire
  obtain ⟨link, hlink', hinside⟩ := hw router port (h.queue_lt router hin) hport
  obtain rfl := Option.some.inj (hlink.symm.trans hlink')
  have hother : other < w.routerCount := hinside other otherPort rfl
  -- a router besides those in the queue leaves one place for its distance
  have hroom : s.queue.size < w.routerCount := by
    by_contra hfull
    exact hnot (h.mem_of_full (by omega) hother)
  have hbound : x * (hops + 1) ≤ x * (w.routerCount - 1) := Nat.mul_le_mul_left x (by omega)
  rw [Nat.mul_succ] at hbound
  omega

theorem Sorted.mem_of_hops {hops : Nat} (hway : w.Hops weights origin router hops) : router ∈ s.queue := by
  induction hway with
  | start => exact (h.mem_queue_iff origin).mpr (by rw [h.distance_origin]; decide)
  | on hway hwire ih => exact h.mem_of_wire hend hx hn hw ih hwire

/-- A router is in the queue exactly if some way leads to it. -/
theorem Sorted.mem_iff_exists_way : router ∈ s.queue ↔ ∃ cost, w.Way weights origin router cost := by
  constructor
  · exact fun hin => ⟨_, h.way router hin⟩
  · rintro ⟨cost, hway⟩
    obtain ⟨hops, -, hhops⟩ := hway.exists_hops hx
    exact h.mem_of_hops hend hx hn hw hhops

end Ended

section Unweighted

variable (h : s.Sorted w none origin 1 read) (hend : s.queue.size ≤ read) (hn : w.routerCount ≤ unreached)
  (hw : w.Described)

include h hend hn hw

/-- **The distance found of a router is its distance.** -/
theorem Sorted.isDistance (router : Nat) : w.IsDistance origin router (s.distance router) := by
  have hpos : 0 < unreached := by decide
  have hreached : router ∈ s.queue ↔ _ := h.mem_iff_exists_way hend uniform_none (by omega) hw
  by_cases hlt : s.distance router < unreached
  · exact .reached ⟨h.way router ((h.mem_queue_iff router).mpr hlt),
      fun cost hway => h.distance_le_of_way hend uniform_none hway⟩ hlt
  · rw [Nat.le_antisymm (h.distance_le router) (Nat.not_lt.mp hlt)]
    exact .unreached fun cost hway => hlt ((h.mem_queue_iff router).mp (hreached.mpr ⟨cost, hway⟩))

end Unweighted

/-- **A search finds every distance** and comes to its end: it stays the same with more room in the queue and with
more steps, and no router has been in the queue twice. -/
theorem exists_run (hw : w.Described) (hn : w.routerCount ≤ unreached) (ho : origin < w.routerCount) :
    ∃ s, (∀ limit steps, w.routerCount ≤ limit → w.routerCount ≤ steps →
        Search.run w limit none steps 0 (.start w origin) = .ok s) ∧
      s.queue.toList.Nodup ∧ s.queue.size ≤ w.routerCount ∧ s.distances.size = w.routerCount ∧
      ∀ router < w.routerCount, ∃ d, s.distances[router]? = some d ∧ w.IsDistance origin router d := by
  obtain ⟨s, read, hrun, h, hend⟩ := (sorted_start none 1 ho).run hw uniform_none w.routerCount (Nat.le_refl _)
  have hsize := h.subperm.length_le
  rw [Array.length_toList, List.length_range] at hsize
  refine ⟨s, hrun, h.queue_nodup, hsize, h.size_eq, fun router hr => ⟨s.distance router, ?_, ?_⟩⟩
  · rw [distance, Array.getD_eq_getD_getElem?, Array.getElem?_eq_getElem (by rwa [h.size_eq]), Option.getD_some]
  · exact h.isDistance hend hn hw router

end Search

/-! ### All distances, and the greatest of them -/

/-- A grid of the distances between all routers. -/
structure Measured (w : Wiring) (all : Grid Nat) : Prop where
  columns_eq : all.columns = w.routerCount
  size_eq : all.cells.size = w.routerCount * w.routerCount
  isDistance : ∀ origin < w.routerCount, ∀ router < w.routerCount,
    ∃ d, all.cell? origin router = some d ∧ w.IsDistance origin router d

theorem exists_measured (hw : w.Described) (hn : w.routerCount ≤ unreached)
    (hroom : Storage.holds (w.routerCount * w.routerCount) 8) :
    ∃ all, w.distances none = .ok all ∧ w.Measured all := by
  have hfrom : ∀ origin ∈ List.range w.routerCount, ∃ found, w.distancesFrom origin none = .ok found ∧
      found.size = w.routerCount ∧
      ∀ router < w.routerCount, ∃ d, found[router]? = some d ∧ w.IsDistance origin router d := by
    intro origin ho
    have ho := List.mem_range.mp ho
    obtain ⟨s, hrun, -, -, hsize, hdistance⟩ := Search.exists_run hw hn ho
    exact ⟨s.distances, distancesFrom_of_run ho (Nat.le_refl _) (holds_visitLimit_none hroom)
      (hrun _ _ (Nat.le_refl _) (Nat.le_refl _)), hsize, hdistance⟩
  choose! found hfound hsize hdistance using hfrom
  have hlength : ∀ cells ∈ ((List.range w.routerCount).map found).map Array.toList,
      cells.length = w.routerCount := by
    intro cells hcells
    obtain ⟨_, hrow, rfl⟩ := List.mem_map.mp hcells
    obtain ⟨origin, ho, rfl⟩ := List.mem_map.mp hrow
    exact hsize origin ho
  refine ⟨_, by rw [distances, if_neg (by simp [hroom]), mapM_eq_ok _ hfound]; rfl, rfl, ?_,
    fun origin ho router hr => ?_⟩
  · rw [List.size_toArray, List.length_flatten, List.map_congr_left hlength, List.map_const',
      List.sum_replicate_nat, List.length_map, List.length_map, List.length_range]
  · obtain ⟨d, hd, his⟩ := hdistance origin (List.mem_range.mpr ho) router hr
    refine ⟨d, ?_, his⟩
    rw [Grid.cell?, Grid.place_eq (Storage.count_le (by decide) hroom) ho hr, List.getElem?_toArray,
      Grid.getElem?_flatten hlength hr, List.getElem?_map, List.getElem?_map, List.getElem?_range ho,
      Option.map_some, Option.map_some, Option.bind_some,
      Array.getElem?_toList]
    exact hd

theorem Measured.place_eq {all : Grid Nat} (h : w.Measured all)
    (hroom : Storage.holds (w.routerCount * w.routerCount) 8) (ho : origin < w.routerCount)
    (hr : router < w.routerCount) : all.place origin router = origin * w.routerCount + router := by
  have hc : router < all.columns := by rwa [h.columns_eq]
  have hwords : w.routerCount * all.columns ≤ 2 ^ 64 := by
    rw [h.columns_eq]
    exact Storage.count_le (by decide) hroom
  rw [Grid.place_eq hwords ho hc, h.columns_eq]

/-- What stands off the diagonal are the distances between two different routers. -/
theorem Measured.mem_offDiagonal_iff {all : Grid Nat} (h : w.Measured all)
    (hroom : Storage.holds (w.routerCount * w.routerCount) 8) : d ∈ all.offDiagonal ↔
    ∃ origin < w.routerCount, ∃ router < w.routerCount, origin ≠ router ∧ w.IsDistance origin router d := by
  rw [Grid.mem_offDiagonal_iff, h.columns_eq]
  constructor
  · rintro ⟨place, hat, hne⟩
    have hplace : place < w.routerCount * w.routerCount := h.size_eq ▸ (Array.getElem?_eq_some_iff.mp hat).1
    have hpos : 0 < w.routerCount := Nat.pos_of_lt_mul_right hplace
    have hrow : place / w.routerCount < w.routerCount := Nat.div_lt_of_lt_mul hplace
    have hcolumn : place % w.routerCount < w.routerCount := Nat.mod_lt _ hpos
    obtain ⟨d', hd', his⟩ := h.isDistance _ hrow _ hcolumn
    rw [Grid.cell?, h.place_eq hroom hrow hcolumn, Nat.div_add_mod', hat] at hd'
    cases hd'
    exact ⟨_, hrow, _, hcolumn, hne, his⟩
  · rintro ⟨origin, ho, router, hr, hne, his⟩
    obtain ⟨d', hd', his'⟩ := h.isDistance origin ho router hr
    rw [Grid.cell?, h.place_eq hroom ho hr] at hd'
    refine ⟨origin * w.routerCount + router, his.unique his' ▸ hd', ?_⟩
    rwa [Grid.place_div hr, Grid.place_mod hr]

/-- What a fold by `max` comes to is at least every member, and is one of them or the start. -/
theorem isGreatest_foldl_max (xs : List Nat) (start : Nat) :
    IsGreatest {d | d = start ∨ d ∈ xs} (xs.foldl max start) := by
  induction xs generalizing start with
  | nil => exact ⟨.inl rfl, by rintro d (rfl | ⟨⟨⟩⟩); exact Nat.le_refl d⟩
  | cons x xs ih =>
    obtain ⟨hmem, hle⟩ := ih (max start x)
    rw [List.foldl_cons]
    constructor
    · rcases hmem with heq | hin
      · rcases Nat.le_total start x with hx | hx
        · exact .inr (List.mem_cons.mpr (.inl (heq.trans (Nat.max_eq_right hx))))
        · exact .inl (heq.trans (Nat.max_eq_left hx))
      · exact .inr (List.mem_cons_of_mem x hin)
    · have hmax : max start x ≤ xs.foldl max (max start x) := hle (.inl rfl)
      rintro d (rfl | hd)
      · exact Nat.le_trans (Nat.le_max_left d x) hmax
      · rcases List.mem_cons.mp hd with rfl | hd
        · exact Nat.le_trans (Nat.le_max_right start d) hmax
        · exact hle (.inr hd)

/-- The greatest distance is that of some two different routers, and zero where there are none. -/
theorem Measured.isGreatest {all : Grid Nat} (h : w.Measured all)
    (hroom : Storage.holds (w.routerCount * w.routerCount) 8) :
    (w.routerCount ≤ 1 → all.offDiagonal.foldl max 0 = 0) ∧ (1 < w.routerCount →
      IsGreatest {d | ∃ origin < w.routerCount, ∃ router < w.routerCount, origin ≠ router ∧
        w.IsDistance origin router d} (all.offDiagonal.foldl max 0)) := by
  obtain ⟨hmem, hle⟩ := isGreatest_foldl_max all.offDiagonal 0
  constructor
  · intro hone
    refine hmem.resolve_right fun hin => ?_
    obtain ⟨origin, ho, router, hr, hne, -⟩ := (h.mem_offDiagonal_iff hroom).mp hin
    omega
  · intro htwo
    refine ⟨?_, fun d hd => hle (.inr ((h.mem_offDiagonal_iff hroom).mpr hd))⟩
    rcases hmem with hzero | hin
    · -- then no distance is greater than zero, that from router 0 to router 1 among them
      obtain ⟨d, -, his⟩ := h.isDistance 0 (by omega) 1 htwo
      have hd : d ≤ all.offDiagonal.foldl max 0 :=
        hle (.inr ((h.mem_offDiagonal_iff hroom).mpr ⟨0, by omega, 1, htwo, by decide, his⟩))
      obtain rfl : d = all.offDiagonal.foldl max 0 := by omega
      exact ⟨0, by omega, 1, htwo, by decide, his⟩
    · exact (h.mem_offDiagonal_iff hroom).mp hin

/-- The router a port leads to, if it leads to one, is among so many. -/
def leadsWithin (count : Nat) (link : Link) : Bool :=
  match link.peer with
  | .router other _ => other < count
  | _ => true

/-- A network given by lists describes every port, if they lead to none but its own routers. -/
theorem described_ofLists {routers : Array (Array Link)} (servers : Array Link)
    (hinside : ∀ links ∈ routers, ∀ link ∈ links, leadsWithin routers.size link) :
    (ofLists routers servers).Described := by
  intro router port hr hport
  have hlinks : routers[router]? = some routers[router] := Array.getElem?_eq_getElem hr
  have hport : port < routers[router].size := by simpa [ports, ofLists, hlinks] using hport
  refine ⟨routers[router][port], ?_, fun other otherPort hpeer => ?_⟩
  · simp only [ofLists, hlinks, Option.bind_some, Array.getElem?_eq_getElem hport]
  · have hwithin := hinside _ (Array.getElem_mem hr) _ (Array.getElem_mem hport)
    rw [leadsWithin, hpeer] at hwithin
    exact of_decide_eq_true hwithin

/-- Two parallel wires lead from router 0 to router 1 and one from there to router 2, where the way ends. -/
def deadEnd : Wiring :=
  ofLists #[#[⟨.router 1 0, 0⟩, ⟨.nothing, 0⟩, ⟨.router 1 1, 1⟩], #[⟨.server 0, 2⟩, ⟨.router 2 0, 1⟩], #[]]
    #[⟨.router 1 0, 2⟩]

end DragonflyFabric.Wiring
