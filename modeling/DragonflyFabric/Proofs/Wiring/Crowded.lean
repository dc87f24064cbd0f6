import DragonflyFabric.Proofs.Wiring.Returns
import DragonflyFabric.Proofs.Wiring.Weighted
import Mathlib.Algebra.Order.BigOperators.Group.Finset

/-!
# What a full queue hides

With weights, a router enters the queue again whenever it comes nearer, as long as the queue has room. There are as
many places in it as there are routers times weights.

* `Search.Onward`: the routers that come nearer are those that are put in the queue.
* `Search.Settled`: while there is room, every router is still to be visited, or none of its wires leads to a router
  that would come nearer by it. So distances are exact in the end if a place of the queue is left.
* `Hops.lt_routerCount`: the fewest wires to a router are fewer than the routers, so that no sum along them is cut off.
* `Search.mem_of_count_le`: a full queue has every router in it, unless it has one more often than there are weights.

A router that some way leads to is therefore found, or else some router has come nearer more often than there are
weights: `reached_or_crowded`. That does happen, even where all wires lead back: `crowded_out`.
-/

namespace DragonflyFabric.Wiring

variable {w : Wiring} {weights : Option (Array Nat)} {origin limit read front router hops : Nat}

/-! ### Few wires -/

section Hops

theorem Hops.router_lt (hw : w.Described) (ho : origin < w.routerCount) (h : w.Hops weights origin router hops) :
    router < w.routerCount := by
  induction h with
  | start => exact ho
  | on _ hwire ih =>
    obtain ⟨port, otherPort, kind, hport, hlink, -⟩ := hwire
    obtain ⟨link, hlink', hinside⟩ := hw _ port ih hport
    obtain rfl := Option.some.inj (hlink.symm.trans hlink')
    exact hinside _ otherPort rfl

/-- The fewest wires to a router lead to it from one that takes one wire less. -/
theorem Hops.exists_before (h : IsLeast {n | w.Hops weights origin router n} (hops + 1)) :
    ∃ before, IsLeast {n | w.Hops weights origin before n} hops := by
  obtain ⟨hway, hleast⟩ := h
  cases hway with
  | @on before _ _ _ hway hwire =>
    refine ⟨before, hway, fun n hn => ?_⟩
    have := hleast (Hops.on hn hwire)
    omega

theorem Hops.exists_least (h : IsLeast {n | w.Hops weights origin router n} hops) {n : Nat} (hn : n ≤ hops) :
    ∃ between, IsLeast {n | w.Hops weights origin between n} n := by
  induction hops generalizing router with
  | zero =>
    obtain rfl := Nat.le_zero.mp hn
    exact ⟨router, h⟩
  | succ hops ih =>
    by_cases heq : n = hops + 1
    · exact ⟨router, heq ▸ h⟩
    · obtain ⟨before, hbefore⟩ := exists_before h
      exact ih hbefore (by omega)

/-- **The fewest wires to a router are fewer than there are routers.** -/
theorem Hops.lt_routerCount (hw : w.Described) (ho : origin < w.routerCount)
    (h : IsLeast {n | w.Hops weights origin router n} hops) : hops < w.routerCount := by
  choose! between hbetween using fun n (hn : n ≤ hops) => exists_least h hn
  have hnodup : ((List.range (hops + 1)).map between).Nodup := by
    refine List.Nodup.map_on (fun n hn m hm heq => ?_) List.nodup_range
    have hleast := hbetween n (Nat.lt_succ_iff.mp (List.mem_range.mp hn))
    rw [heq] at hleast
    exact hleast.unique (hbetween m (Nat.lt_succ_iff.mp (List.mem_range.mp hm)))
  have hsub : (List.range (hops + 1)).map between ⊆ List.range w.routerCount := by
    intro at_n hmem
    obtain ⟨n, hn, rfl⟩ := List.mem_map.mp hmem
    exact List.mem_range.mpr ((hbetween n (Nat.lt_succ_iff.mp (List.mem_range.mp hn))).1.router_lt hw ho)
  have hlength := (List.subperm_of_subset hnodup hsub).length_le
  rwa [List.length_map, List.length_range, List.length_range] at hlength

/-- What so many wires count together, where none of them counts more than a part of some bound. -/
theorem Hops.exists_way {parts bound : Nat}
    (hmost : ∀ kind weight, weight? weights kind = some weight → parts * weight ≤ bound)
    (h : w.Hops weights origin router hops) : ∃ cost, w.Way weights origin router cost ∧ parts * cost ≤ hops * bound := by
  induction h with
  | start => exact ⟨0, .start, by simp⟩
  | @on router other hops weight _ hwire ih =>
    obtain ⟨cost, hway, hcost⟩ := ih
    have ⟨_, _, kind, _, _, hweight⟩ := hwire
    refine ⟨cost + weight, .on hway hwire, ?_⟩
    rw [Nat.mul_add, Nat.succ_mul]
    exact Nat.add_le_add hcost (hmost kind weight hweight)

/-- Where sums of as many weights as there are routers are not cut off, some way to a router counts less than
`unreached`. -/
theorem Hops.exists_way_lt (hw : w.Described) (ho : origin < w.routerCount)
    (hmost : ∀ kind weight, weight? weights kind = some weight → w.routerCount * weight ≤ unreached)
    (h : w.Hops weights origin router hops) : ∃ cost < unreached, w.Way weights origin router cost := by
  classical
  have hex : ∃ n, w.Hops weights origin router n := ⟨hops, h⟩
  have hleast : IsLeast {n | w.Hops weights origin router n} (Nat.find hex) :=
    ⟨Nat.find_spec hex, fun _ hn => Nat.find_min' hex hn⟩
  obtain ⟨cost, hway, hcost⟩ := hleast.1.exists_way hmost
  refine ⟨cost, ?_, hway⟩
  have hfew : Nat.find hex < w.routerCount := lt_routerCount hw ho hleast
  have hpos : 0 < unreached := by decide
  have hcost : w.routerCount * cost < w.routerCount * unreached :=
    Nat.lt_of_le_of_lt hcost (Nat.mul_lt_mul_of_pos_right hfew hpos)
  exact Nat.lt_of_mul_lt_mul_left hcost

end Hops

namespace Search

variable {s s' s'' : Search}

/-! ### Nearer routers are in the queue -/

/-- How a search goes on: its queue grows at the end, and the routers that are put there are those that come nearer. -/
structure Onward (s s' : Search) : Prop where
  queue_eq : ∀ i router : Nat, s.queue[i]? = some router → s'.queue[i]? = some router
  distance_le : ∀ router, s'.distance router ≤ s.distance router
  nearer_iff : ∀ router, s'.distance router < s.distance router ↔
    ∃ i : Nat, s.queue.size ≤ i ∧ s'.queue[i]? = some router

theorem Onward.refl (s : Search) : s.Onward s where
  queue_eq _ _ h := h
  distance_le _ := Nat.le_refl _
  nearer_iff router := by
    constructor
    · intro h
      exact absurd h (Nat.lt_irrefl _)
    · rintro ⟨i, hi, hat⟩
      have := (Array.getElem?_eq_some_iff.mp hat).1
      omega

theorem Onward.size_le (h : s.Onward s') : s.queue.size ≤ s'.queue.size := by
  by_contra hlt
  have hlast : s'.queue.size < s.queue.size := by omega
  have hkept := h.queue_eq s'.queue.size _ (Array.getElem?_eq_getElem hlast)
  have := (Array.getElem?_eq_some_iff.mp hkept).1
  omega

theorem Onward.trans (h : s.Onward s') (h' : s'.Onward s'') : s.Onward s'' where
  queue_eq i router hi := h'.queue_eq i router (h.queue_eq i router hi)
  distance_le router := Nat.le_trans (h'.distance_le router) (h.distance_le router)
  nearer_iff router := by
    have hle := h.distance_le router
    have hle' := h'.distance_le router
    have hsize := h.size_le
    constructor
    · intro hnearer
      by_cases hfirst : s'.distance router < s.distance router
      · obtain ⟨i, hi, hat⟩ := (h.nearer_iff router).mp hfirst
        exact ⟨i, hi, h'.queue_eq i router hat⟩
      · obtain ⟨i, hi, hat⟩ := (h'.nearer_iff router).mp (by omega)
        exact ⟨i, by omega, hat⟩
    · rintro ⟨i, hi, hat⟩
      by_cases hfirst : i < s'.queue.size
      · have hat' := Array.getElem?_eq_getElem hfirst
        have hsame := h'.queue_eq i _ hat'
        rw [hat] at hsame
        rw [← Option.some.inj hsame] at hat'
        have := (h.nearer_iff router).mpr ⟨i, hi, hat'⟩
        omega
      · have := (h'.nearer_iff router).mpr ⟨i, by omega, hat⟩
        omega

/-- A router that comes nearer is put at the end of the queue. -/
theorem Onward.enqueue {other way : Nat} (hother : other < s.distances.size) (hway : way < s.distance other) :
    s.Onward (s.enqueue other way) where
  queue_eq i router hi := (getElem?_enqueue (Array.getElem?_eq_some_iff.mp hi).1).trans hi
  distance_le router := by
    rw [distance_enqueue hother]
    split
    · next heq => exact heq ▸ Nat.le_of_lt hway
    · exact Nat.le_refl _
  nearer_iff router := by
    rw [distance_enqueue hother]
    constructor
    · intro hnearer
      split at hnearer
      · next heq => exact ⟨s.queue.size, Nat.le_refl _, by rw [heq, Search.enqueue, Array.getElem?_push_size]⟩
      · exact absurd hnearer (Nat.lt_irrefl _)
    · rintro ⟨i, hi, hat⟩
      rw [Search.enqueue, Array.getElem?_push] at hat
      split at hat
      · obtain rfl := Option.some.inj hat
        rw [if_pos rfl]
        exact hway
      · have := (Array.getElem?_eq_some_iff.mp hat).1
        omega

/-- **A look along one wire.** If there is room, the far end is known to be as near as the wire brings it. -/
theorem onward_look {found : Option Link} (h : s.look limit weights (s.distance front) found = .ok s') :
    s.Onward s' ∧ (s.queue.size < limit → ∀ other otherPort kind weight,
      found = some ⟨.router other otherPort, kind⟩ → weight? weights kind = some weight →
        s'.distance other ≤ s.distance front + weight) := by
  rcases found with _ | ⟨_ | _ | _, kind⟩
  case none => cases h
  case some.server =>
    cases h
    exact ⟨.refl s, by rintro _ _ _ _ _ ⟨⟩⟩
  case some.nothing =>
    cases h
    exact ⟨.refl s, by rintro _ _ _ _ _ ⟨⟩⟩
  case some.router other otherPort =>
    rw [look] at h
    cases hweight : weight? weights kind with
    | none =>
      rw [hweight] at h
      cases h
      refine ⟨.refl s, ?_⟩
      rintro _ _ _ _ weight ⟨⟩ hsome
      rw [hweight] at hsome
      cases hsome
    | some weight =>
      rw [hweight] at h
      dsimp only at h
      cases hknown : s.distances[other]? with
      | none =>
        rw [hknown] at h
        cases h
      | some known =>
        have hdistance : s.distance other = known := by
          rw [distance, Array.getD_eq_getD_getElem?, hknown, Option.getD_some]
        rw [hknown] at h
        dsimp only at h
        split at h
        · next hpush =>
          cases h
          have hother := (Array.getElem?_eq_some_iff.mp hknown).1
          refine ⟨.enqueue hother (hdistance ▸ hpush.1), ?_⟩
          rintro - _ _ _ weight' ⟨⟩ hsome
          rw [hweight] at hsome
          cases hsome
          rw [← enqueue, distance_enqueue hother, if_pos rfl]
          exact Nat.min_le_left _ _
        · next hkeep =>
          cases h
          refine ⟨.refl s, ?_⟩
          rintro hroom _ _ _ weight' ⟨⟩ hsome
          rw [hweight] at hsome
          cases hsome
          omega

theorem onward_look_all (ports : List Nat) (h : ports.foldlM
      (fun s port => s.look limit weights (s.distances.getD front unreached) (w.link? front port)) s = .ok s') :
    s.Onward s' ∧ (s'.queue.size < limit → ∀ port ∈ ports, ∀ other otherPort kind weight,
      w.link? front port = some ⟨.router other otherPort, kind⟩ → weight? weights kind = some weight →
        s'.distance other ≤ s'.distance front + weight ∨ s'.distance front < s.distance front) := by
  induction ports generalizing s with
  | nil =>
    cases h
    exact ⟨.refl _, fun _ _ hp => absurd hp List.not_mem_nil⟩
  | cons port ports ih =>
    rw [List.foldlM_cons] at h
    obtain ⟨s₁, hlook, h⟩ := ok_of_bind_ok h
    obtain ⟨hfirst, hnear⟩ := onward_look hlook
    obtain ⟨hrest, hall⟩ := ih h
    refine ⟨hfirst.trans hrest, fun hroom port' hp other otherPort kind weight hlink hweight => ?_⟩
    have hsize := hrest.size_le
    have hfront := hfirst.distance_le front
    rcases List.mem_cons.mp hp with rfl | hp
    · have := hnear (Nat.lt_of_le_of_lt (hfirst.trans hrest).size_le hroom) other otherPort kind weight hlink hweight
      have hother := hrest.distance_le other
      have hfront' := hrest.distance_le front
      omega
    · have := hall hroom port' hp other otherPort kind weight hlink hweight
      omega

theorem onward_visit (h : s.visit w limit weights front = .ok s') : s.Onward s' :=
  (onward_look_all (List.range (w.ports front)) h).1

theorem onward_run {steps : Nat} (h : run w limit weights steps read s = .ok s') : s.Onward s' := by
  induction steps generalizing read s with
  | zero =>
    cases h
    exact .refl _
  | succ steps ih =>
    rw [run] at h
    split at h
    · cases h
      exact .refl _
    · obtain ⟨s₁, hvisit, h⟩ := ok_of_bind_ok h
      exact (onward_visit hvisit).trans (ih h)

/-! ### While there is room -/

/-- No wire of a router leads to one that would come nearer by it. -/
def Relaxed (w : Wiring) (weights : Option (Array Nat)) (s : Search) (router : Nat) : Prop :=
  ∀ other weight, w.Wire weights router other weight → s.distance other ≤ s.distance router + weight

/-- Every router is still to be visited, or its wires bring nothing nearer. -/
def Settled (w : Wiring) (weights : Option (Array Nat)) (read : Nat) (s : Search) : Prop :=
  ∀ router, (∃ i, read ≤ i ∧ s.queue[i]? = some router) ∨ s.Relaxed w weights router

theorem settled_start (weights : Option (Array Nat)) (ho : origin < w.routerCount) :
    (start w origin).Settled w weights 0 := by
  intro router
  by_cases hr : router = origin
  · exact .inl ⟨0, Nat.le_refl 0, by simp [start, hr]⟩
  · refine .inr fun other weight _ => ?_
    rw [distance_start ho, distance_start ho, if_neg hr]
    split <;> omega

/-- **A visit, where there is room,** leaves nothing to be done for the router until it comes nearer. -/
theorem Settled.visit (h : s.Settled w weights read) (hfront : s.queue[read]? = some front)
    (hvisit : s.visit w limit weights front = .ok s') (hroom : s'.queue.size < limit) :
    s'.Settled w weights (read + 1) := by
  have hread := (Array.getElem?_eq_some_iff.mp hfront).1
  obtain ⟨honward, hnear⟩ := onward_look_all (List.range (w.ports front)) hvisit
  intro router
  by_cases hnearer : s'.distance router < s.distance router
  · obtain ⟨i, hi, hat⟩ := (honward.nearer_iff router).mp hnearer
    exact .inl ⟨i, by omega, hat⟩
  by_cases hr : router = front
  · subst hr
    right
    rintro other weight ⟨port, otherPort, kind, hport, hlink, hweight⟩
    exact (hnear hroom port (List.mem_range.mpr hport) other otherPort kind weight hlink hweight).resolve_right hnearer
  · rcases h router with ⟨i, hi, hat⟩ | hrelaxed
    · have hne : i ≠ read := by
        rintro rfl
        rw [hfront] at hat
        exact hr (Option.some.inj hat).symm
      exact .inl ⟨i, by omega, honward.queue_eq i router hat⟩
    · right
      intro other weight hwire
      have hkept := hrelaxed other weight hwire
      have hother := honward.distance_le other
      omega

/-- **A search that never lacked room** leaves nothing to be done. -/
theorem Settled.run {steps : Nat} (h : s.Settled w weights read) (hrun : run w limit weights steps read s = .ok s')
    (hsteps : limit ≤ steps + read) (hroom : s'.queue.size < limit) (router : Nat) : s'.Relaxed w weights router := by
  induction steps generalizing read s with
  | zero =>
    cases hrun
    refine (h router).resolve_left ?_
    rintro ⟨i, hi, hat⟩
    have := (Array.getElem?_eq_some_iff.mp hat).1
    omega
  | succ steps ih =>
    rw [Search.run] at hrun
    split at hrun
    · next hend =>
      cases hrun
      refine (h router).resolve_left ?_
      rintro ⟨i, hi, hat⟩
      have hlt := (Array.getElem?_eq_some_iff.mp hat).1
      have hle := Array.getElem?_eq_none_iff.mp hend
      omega
    · next front hfront =>
      obtain ⟨s₁, hvisit, hrun⟩ := ok_of_bind_ok hrun
      have hroom₁ : s₁.queue.size < limit := Nat.lt_of_le_of_lt (onward_run hrun).size_le hroom
      exact ih (h.visit hfront hvisit hroom₁) hrun (by omega)

/-- Where no wire brings anything nearer, no way counts less than the distance. -/
theorem distance_le_of_relaxed (horigin : s.distance origin = 0) (h : ∀ router, s.Relaxed w weights router)
    {cost : Nat} (hway : w.Way weights origin router cost) : s.distance router ≤ cost := by
  induction hway with
  | start => exact Nat.le_of_eq horigin
  | @on router other cost weight _ hwire ih =>
    have := h router other weight hwire
    omega

/-! ### When the queue is full -/

/-- The routers in the queue are those that were reached. -/
theorem Onward.mem_queue_iff (ho : origin < w.routerCount) (h : (start w origin).Onward s) (router : Nat) :
    router ∈ s.queue ↔ s.distance router < unreached := by
  have hle := h.distance_le router
  rw [distance_start ho] at hle
  have hnearer := h.nearer_iff router
  rw [distance_start ho] at hnearer
  constructor
  · intro hin
    obtain ⟨i, hat⟩ := Array.mem_iff_getElem?.mp hin
    by_cases hr : router = origin
    · rw [if_pos hr] at hle
      have hpos : 0 < unreached := by decide
      omega
    · rw [if_neg hr] at hnearer
      refine hnearer.mpr ⟨i, ?_, hat⟩
      -- the first place of the queue is that of the origin
      by_contra hfirst
      have hzero : i = 0 := by
        have : (start w origin).queue.size = 1 := rfl
        omega
      have horigin := h.queue_eq 0 origin rfl
      rw [← hzero, hat] at horigin
      exact hr (Option.some.inj horigin)
  · intro hlt
    by_cases hr : router = origin
    · exact hr ▸ Array.mem_of_getElem? (h.queue_eq 0 origin rfl)
    · rw [if_neg hr] at hnearer
      obtain ⟨i, -, hat⟩ := hnearer.mp hlt
      exact Array.mem_of_getElem? hat

/-- **A full queue has every router in it,** if it has none more often than its share. -/
theorem mem_of_count_le {queue : Array Nat} {routers share : Nat} (hshare : 0 < share)
    (hlt : ∀ router ∈ queue, router < routers) (hfull : routers * share ≤ queue.size)
    (hcount : ∀ router, queue.count router ≤ share) (hr : router < routers) : router ∈ queue := by
  by_contra hnot
  have hsub : queue.toList.toFinset ⊆ (Finset.range routers).erase router := by
    intro other hother
    have hin : other ∈ queue := by simpa using hother
    refine Finset.mem_erase.mpr ⟨?_, Finset.mem_range.mpr (hlt other hin)⟩
    rintro rfl
    exact hnot hin
  have hcard : queue.toList.toFinset.card ≤ routers - 1 := by
    have := Finset.card_le_card hsub
    rwa [Finset.card_erase_of_mem (Finset.mem_range.mpr hr), Finset.card_range] at this
  have hsize : queue.size ≤ queue.toList.toFinset.card * share := by
    rw [← Array.length_toList, ← List.sum_toFinset_count_eq_length, ← Nat.nsmul_eq_mul]
    refine Finset.sum_le_card_nsmul _ _ _ fun other _ => ?_
    rw [Array.count_toList]
    exact hcount other
  have hless : queue.toList.toFinset.card * share ≤ (routers - 1) * share := Nat.mul_le_mul_right share hcard
  have hmore : (routers - 1) * share < routers * share := Nat.mul_lt_mul_of_pos_right (by omega) hshare
  omega

end Search

/-- **Routers are found, unless some come nearer too often.** In a network whose ports lead to no router outside, and
with weights that can be added up as often as there are routers, the distance of a router that some way leads to is
below `unreached`, unless a router was put in the queue more often than there are weights. Every distance below
`unreached` is what some way counts, and no way counts less if the queue still has room in the end. The distances are
given as long as there is room for the queue at all. -/
theorem reached_or_crowded (hw : w.Described) {ws : Array Nat} (hws : 0 < ws.size) (ho : origin < w.routerCount)
    (hmost : ∀ weight ∈ ws, weight ≠ unreached → w.routerCount * weight ≤ unreached) :
    ∃ found : Search,
      Search.run w (w.routerCount * ws.size) (some ws) (w.routerCount * ws.size) 0 (.start w origin) = .ok found ∧
      (Storage.holds (w.routerCount * ws.size) 8 → w.distancesFrom origin (some ws) = .ok found.distances) ∧
      ∀ router < w.routerCount, ∃ d, found.distances[router]? = some d ∧
        (d < unreached → w.Way (some ws) origin router d) ∧
        (∀ hops, w.Hops (some ws) origin router hops →
          d < unreached ∨ ∃ other, ws.size < found.queue.count other) ∧
        (found.queue.size < w.routerCount * ws.size → ∀ cost, w.Way (some ws) origin router cost → d ≤ cost) := by
  have hroom : w.routerCount ≤ w.routerCount * ws.size := Nat.le_mul_of_pos_right _ hws
  have hused : ∀ kind weight, weight? (some ws) kind = some weight → w.routerCount * weight ≤ unreached := by
    intro kind weight hweight
    obtain ⟨hat, hne⟩ := weight?_some_iff.mp hweight
    exact hmost weight (Array.mem_of_getElem? hat) hne
  obtain ⟨found, hrun, hsound⟩ :=
    (Search.sound_start (some ws) ho (by omega)).run hw (w.routerCount * ws.size) 0 (Nat.le_refl _)
  have hrun := hrun _ (Nat.le_refl _)
  have honward := Search.onward_run hrun
  have hleast : found.queue.size < w.routerCount * ws.size →
      ∀ router cost, w.Way (some ws) origin router cost → found.distance router ≤ cost := by
    intro hspare router cost hway
    have horigin := honward.distance_le origin
    rw [Search.distance_start ho, if_pos rfl] at horigin
    have hrelaxed := (Search.settled_start (some ws) ho).run hrun (Nat.le_refl _) hspare
    exact Search.distance_le_of_relaxed (Nat.le_zero.mp horigin) hrelaxed hway
  refine ⟨found, hrun, fun hholds => distancesFrom_of_weighted_run ho hws hholds hrun, fun router hr => ?_⟩
  refine ⟨found.distance router, hsound.getElem?_distances hr, hsound.way router, ?_, fun hspare => hleast hspare router⟩
  intro hops hhops
  by_cases hspare : found.queue.size < w.routerCount * ws.size
  · obtain ⟨cost, hcost, hway⟩ := hhops.exists_way_lt hw ho hused
    exact .inl (Nat.lt_of_le_of_lt (hleast hspare router cost hway) hcost)
  · by_cases hcount : ∃ other, ws.size < found.queue.count other
    · exact .inr hcount
    · have hshare : ∀ other, found.queue.count other ≤ ws.size := fun other =>
        Nat.not_lt.mp fun hlt => hcount ⟨other, hlt⟩
      have hin := Search.mem_of_count_le hws hsound.queue_lt (by omega) hshare hr
      exact .inl ((honward.mem_queue_iff ho router).mp hin)

/-- Router 1 comes nearer by the second wire to it and is put in the queue twice, which is as often as there are
weights. Router 2 is found behind it. -/
theorem reached_or_crowded_deadEnd : deadEnd.Described ∧ 0 < (#[5, 3] : Array Nat).size ∧ 0 < deadEnd.routerCount ∧
    (∀ weight ∈ (#[5, 3] : Array Nat), weight ≠ unreached → deadEnd.routerCount * weight ≤ unreached) ∧
    deadEnd.distancesFrom 0 (some #[5, 3]) = .ok #[0, 3, 6] ∧ deadEnd.Way (some #[5, 3]) 0 2 6 ∧
    ∀ cost, deadEnd.Way (some #[5, 3]) 0 2 cost → 6 ≤ cost := by
  have hw : deadEnd.Described := described_ofLists _ (by decide)
  have hws : 0 < (#[5, 3] : Array Nat).size := by decide
  have ho : 0 < deadEnd.routerCount := by decide
  have hmost : ∀ weight ∈ (#[5, 3] : Array Nat), weight ≠ unreached → deadEnd.routerCount * weight ≤ unreached := by
    decide
  obtain ⟨found, hrun, hfrom, hall⟩ := reached_or_crowded hw hws ho hmost
  cases hrun.symm.trans (rfl : _ = Except.ok (⟨#[0, 3, 6], #[0, 1, 1, 2]⟩ : Search))
  obtain ⟨d, hd, hway, -, hleast⟩ := hall 2 (by decide)
  cases hd
  exact ⟨hw, hws, ho, hmost, hfrom (by decide), hway (by decide), hleast (by decide)⟩

/-- A row of eight routers, most of them joined by two wires, a light one and a heavy one. -/
def doubled : Wiring :=
  ofLists #[
    #[⟨.router 2 1, 1⟩, ⟨.router 1 2, 1⟩, ⟨.router 1 0, 0⟩],
    #[⟨.router 0 2, 0⟩, ⟨.router 3 0, 0⟩, ⟨.router 0 1, 1⟩],
    #[⟨.router 4 1, 1⟩, ⟨.router 0 0, 1⟩, ⟨.router 3 3, 0⟩],
    #[⟨.router 1 1, 0⟩, ⟨.router 4 3, 1⟩, ⟨.router 4 2, 0⟩, ⟨.router 2 2, 0⟩],
    #[⟨.router 5 2, 1⟩, ⟨.router 2 0, 1⟩, ⟨.router 3 2, 0⟩, ⟨.router 3 1, 1⟩, ⟨.router 5 0, 0⟩],
    #[⟨.router 4 4, 0⟩, ⟨.router 6 2, 1⟩, ⟨.router 4 0, 1⟩, ⟨.router 6 0, 0⟩],
    #[⟨.router 5 3, 0⟩, ⟨.router 7 0, 0⟩, ⟨.router 5 1, 1⟩],
    #[⟨.router 6 1, 0⟩]] #[]

/-- **A router can be taken for one that no way leads to.** All wires lead back, and six of the lighter ones lead to
router 7. The queue is full before it is looked at. -/
theorem crowded_out : doubled.Described ∧ (doubled.audit (some 2)).result = .ok () ∧
    (∀ weight ∈ (#[2, 7] : Array Nat), weight ≠ unreached → doubled.routerCount * weight ≤ unreached) ∧
    doubled.Hops (some #[2, 7]) 0 7 6 ∧
    doubled.distancesFrom 0 (some #[2, 7]) = .ok #[0, 2, 6, 4, 6, 8, 18, unreached] := by
  refine ⟨described_ofLists _ (by decide), ok_of_toOption (by decide +kernel), by decide, ?_,
    ok_of_toOption (by decide +kernel)⟩
  have h₁ : doubled.Wire (some #[2, 7]) 0 1 2 := ⟨2, 0, 0, by decide, rfl, rfl⟩
  have h₂ : doubled.Wire (some #[2, 7]) 1 3 2 := ⟨1, 0, 0, by decide, rfl, rfl⟩
  have h₃ : doubled.Wire (some #[2, 7]) 3 4 2 := ⟨2, 2, 0, by decide, rfl, rfl⟩
  have h₄ : doubled.Wire (some #[2, 7]) 4 5 2 := ⟨4, 0, 0, by decide, rfl, rfl⟩
  have h₅ : doubled.Wire (some #[2, 7]) 5 6 2 := ⟨3, 0, 0, by decide, rfl, rfl⟩
  have h₆ : doubled.Wire (some #[2, 7]) 6 7 2 := ⟨1, 0, 0, by decide, rfl, rfl⟩
  exact .on (.on (.on (.on (.on (.on .start h₁) h₂) h₃) h₄) h₅) h₆

end DragonflyFabric.Wiring
