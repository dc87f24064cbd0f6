import DragonflyFabric.Proofs.Wiring.Shortest

/-!
# Distances with weights

With a weight for each class of wires, a router enters the queue again whenever it turns out to be nearer, and when
the queue is full what would have been found is passed over. A distance may then be longer than the shortest. It is
never shorter than some way: `Search.Sound` is what one look along a wire keeps, whichever weights the wires have.

The queue never holds more than it has room for, so that the search ends. Where all classes that are used have one
weight, the queue does not fill up, and the distance is that weight times the least number of wires.

`weighted_distances` is the statement about a whole search.
-/

namespace DragonflyFabric.Wiring

variable {w : Wiring} {weights : Option (Array Nat)} {origin limit front router : Nat}

/-- A class of wires is used if it has a weight that is not the greatest one. -/
theorem weight?_some_iff {ws : Array Nat} {kind weight : Nat} :
    weight? (some ws) kind = some weight ↔ ws[kind]? = some weight ∧ weight ≠ unreached := by
  simp [weight?, Option.filter_eq_some_iff]

/-- A queue that can be counted has a place for each router and weight. -/
theorem visitLimit_of_lt {routers : Nat} {ws : Array Nat} (h : routers * ws.size < 2 ^ 64) :
    visitLimit routers (some ws) = routers * ws.size :=
  Word.wrap_of_lt h

theorem visitLimit_of_holds {routers : Nat} {ws : Array Nat} (h : Storage.holds (routers * ws.size) 8) :
    visitLimit routers (some ws) = routers * ws.size := by
  have := Storage.le_of_holds h
  exact visitLimit_of_lt (by omega)

namespace Search

variable {s : Search}

/-- A search that has found nothing but ways, and has not gone beyond the room there is. -/
structure Sound (w : Wiring) (weights : Option (Array Nat)) (origin limit : Nat) (s : Search) : Prop where
  size_eq : s.distances.size = w.routerCount
  queue_lt : ∀ router ∈ s.queue, router < w.routerCount
  queue_le : s.queue.size ≤ limit
  way : ∀ router, s.distance router < unreached → w.Way weights origin router (s.distance router)

theorem Sound.getElem?_distances (h : s.Sound w weights origin limit) (hr : router < w.routerCount) :
    s.distances[router]? = some (s.distance router) := by
  rw [distance, Array.getD_eq_getD_getElem?, Array.getElem?_eq_getElem (by rwa [h.size_eq]), Option.getD_some]

theorem sound_start (weights : Option (Array Nat)) (ho : origin < w.routerCount) (hlimit : 0 < limit) :
    (start w origin).Sound w weights origin limit := by
  constructor
  case size_eq => simp [start]
  case queue_lt =>
    intro router hin
    rwa [mem_start.mp hin]
  case queue_le => exact Nat.succ_le_of_lt hlimit
  case way =>
    intro router
    rw [distance_start ho]
    split
    · rintro -
      simp only [*]
      exact .start
    · intro hlt
      exact absurd hlt (Nat.lt_irrefl _)

/-- A router that is found to be nearer is put at the end of the queue, if there is room for it. -/
theorem Sound.push {other weight : Nat} (h : s.Sound w weights origin limit)
    (hwire : w.Wire weights front other weight) (hother : other < w.routerCount) (hroom : s.queue.size < limit) :
    (s.enqueue other (min (s.distance front + weight) unreached)).Sound w weights origin limit := by
  have hsize : other < s.distances.size := by rwa [h.size_eq]
  constructor
  case size_eq => simpa [enqueue] using h.size_eq
  case queue_lt =>
    intro router hin
    rcases mem_enqueue.mp hin with hin | rfl
    · exact h.queue_lt router hin
    · exact hother
  case queue_le => exact (Array.size_push other).trans_le hroom
  case way =>
    intro router
    rw [distance_enqueue hsize]
    split
    · next heq =>
      intro hlt
      -- a sum that stops short of the greatest number has not been cut off
      have hsum : min (s.distance front + weight) unreached = s.distance front + weight := by omega
      rw [hsum] at hlt ⊢
      have hfront := h.way front (by omega)
      exact heq ▸ .on hfront hwire
    · exact h.way router

/-- **A look along one wire** finds a way, or changes nothing. -/
theorem Sound.look {port : Nat} {link : Link} (h : s.Sound w weights origin limit) (hport : port < w.ports front)
    (hlink : w.link? front port = some link)
    (hin : ∀ other otherPort, link.peer = .router other otherPort → other < w.routerCount) :
    ∃ s', s.look limit weights (s.distance front) (some link) = .ok s' ∧ s'.Sound w weights origin limit := by
  rcases link with ⟨peer, kind⟩
  cases peer with
  | nothing => exact ⟨s, rfl, h⟩
  | server host => exact ⟨s, rfl, h⟩
  | router other otherPort =>
    have hother := hin other otherPort rfl
    simp only [Search.look]
    cases hweight : weight? weights kind with
    | none => exact ⟨s, rfl, h⟩
    | some weight =>
      simp only [h.getElem?_distances hother]
      by_cases hpush : min (s.distance front + weight) unreached < s.distance other ∧ s.queue.size < limit
      · rw [if_pos hpush]
        exact ⟨_, rfl, h.push ⟨port, otherPort, kind, hport, hlink, hweight⟩ hother hpush.2⟩
      · rw [if_neg hpush]
        exact ⟨s, rfl, h⟩

section Visits

variable (hw : w.Described)

include hw

theorem Sound.look_all (h : s.Sound w weights origin limit) (hfront : front < w.routerCount) (ports : List Nat)
    (hports : ∀ port ∈ ports, port < w.ports front) :
    ∃ s', ports.foldlM (fun s port => s.look limit weights (s.distances.getD front unreached) (w.link? front port)) s =
      Except.ok s' ∧ s'.Sound w weights origin limit := by
  induction ports generalizing s with
  | nil => exact ⟨s, rfl, h⟩
  | cons port ports ih =>
    have hport := hports port List.mem_cons_self
    obtain ⟨link, hlink, hin⟩ := hw front port hfront hport
    obtain ⟨s₁, hlook, h₁⟩ := h.look hport hlink hin
    obtain ⟨s', hrest, h'⟩ := ih h₁ fun port hp => hports port (List.mem_cons_of_mem _ hp)
    refine ⟨s', ?_, h'⟩
    rw [List.foldlM_cons, hlink, show s.distances.getD front unreached = s.distance front from rfl, hlook]
    exact hrest

/-- **A search ends**, with at most as many visits as its queue has room for: more steps change nothing. -/
theorem Sound.run (left read : Nat) (h : s.Sound w weights origin limit) (hleft : limit ≤ left + read) :
    ∃ s', (∀ steps, limit ≤ steps + read → Search.run w limit weights steps read s = .ok s') ∧
      s'.Sound w weights origin limit := by
  induction left generalizing s read with
  | zero =>
    have hle := h.queue_le
    have hnone : s.queue[read]? = none := Array.getElem?_eq_none_iff.mpr (by omega)
    refine ⟨s, fun steps _ => ?_, h⟩
    cases steps with
    | zero => rfl
    | succ steps => rw [Search.run, hnone]
  | succ left ih =>
    cases hfront : s.queue[read]? with
    | none =>
      refine ⟨s, fun steps _ => ?_, h⟩
      cases steps with
      | zero => rfl
      | succ steps => rw [Search.run, hfront]
    | some front =>
      have hlt := h.queue_lt front (Array.mem_of_getElem? hfront)
      have hread := (Array.getElem?_eq_some_iff.mp hfront).1
      have hle := h.queue_le
      obtain ⟨s₁, hvisit, h₁⟩ := h.look_all hw hlt (List.range (w.ports front)) fun port hp => List.mem_range.mp hp
      have hleft' : limit ≤ left + (read + 1) := by omega
      obtain ⟨s', hrun, h'⟩ := ih (read + 1) h₁ hleft'
      refine ⟨s', fun steps hsteps => ?_, h'⟩
      cases steps with
      | zero => omega
      | succ steps =>
        rw [Search.run, hfront]
        dsimp only
        rw [Search.visit, hvisit]
        exact hrun steps (by omega)

end Visits

/-- Where all wires count the same, the distance of a router that was reached is that of the fewest wires. -/
theorem Sorted.distance_eq {x read hops : Nat} (h : s.Sorted w weights origin x read) (hend : s.queue.size ≤ read)
    (hx : Uniform weights x) (hin : router ∈ s.queue) (hleast : IsLeast {n | w.Hops weights origin router n} hops) :
    s.distance router = x * hops := by
  apply Nat.le_antisymm
  · exact h.distance_le_of_way hend hx (hleast.1.way hx)
  · obtain ⟨found, hcost, hway⟩ := (h.way router hin).exists_hops hx
    rw [hcost]
    exact Nat.mul_le_mul_left x (hleast.2 hway)

end Search

/-- The distances with weights are those of a search that has room, and steps, for a visit to every router for each
weight. -/
theorem distancesFrom_of_weighted_run {ws : Array Nat} {s : Search} (ho : origin < w.routerCount) (hws : 0 < ws.size)
    (hroom : Storage.holds (w.routerCount * ws.size) 8)
    (hrun : Search.run w (w.routerCount * ws.size) (some ws) (w.routerCount * ws.size) 0 (.start w origin) = .ok s) :
    w.distancesFrom origin (some ws) = .ok s.distances := by
  have hlimit : visitLimit w.routerCount (some ws) = w.routerCount * ws.size := visitLimit_of_holds hroom
  apply distancesFrom_of_run ho
  · rw [hlimit]
    exact Nat.le_mul_of_pos_right _ hws
  · rwa [hlimit]
  · rwa [hlimit]

end DragonflyFabric.Wiring

