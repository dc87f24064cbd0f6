import DragonflyFabric.Proofs.Outcome
import DragonflyFabric.Proofs.Words
import DragonflyFabric.Wiring.Distance
import Mathlib.Data.List.Perm.Subperm

/-!
# Breadth first search finds the shortest ways

Where every wire that a search may use counts the same, the queue stays sorted by distance, and a router
enters it once: `Search.Sorted` is what one look along a wire keeps. When the queue has been read to its end,
no way costs less than the distance found, which is that of some way: `distancesFrom_eq_ok`.

The distances between all routers are then bounded by any bound of the ways: `diameter_le`.
-/

namespace DragonflyFabric.Wiring

variable {w : Wiring} {weights : Option (Array Nat)} {origin x limit read front router other port : Nat}

/-- Every port of a router is described, and leads to no router outside the network. -/
def Described (w : Wiring) : Prop :=
  ∀ router port, router < w.routerCount → port < w.ports router → ∃ link, w.link? router port = some link ∧
    ∀ other otherPort, link.peer = .router other otherPort → other < w.routerCount

/-- A port of a router has a wire to another router, which counts `weight`. -/
def Wire (w : Wiring) (weights : Option (Array Nat)) (router other weight : Nat) : Prop :=
  ∃ port otherPort kind, port < w.ports router ∧ w.link? router port = some ⟨.router other otherPort, kind⟩ ∧
    weight? weights kind = some weight

/-- A way from one router to another, and what its wires count together. -/
inductive Way (w : Wiring) (weights : Option (Array Nat)) (origin : Nat) : Nat → Nat → Prop
  | start : Way w weights origin origin 0
  | on {router other cost weight : Nat} (h : Way w weights origin router cost)
      (hwire : w.Wire weights router other weight) : Way w weights origin other (cost + weight)

/-- All wires that are used count the same. -/
def Uniform (weights : Option (Array Nat)) (x : Nat) : Prop :=
  ∀ kind weight, weight? weights kind = some weight → weight = x

theorem uniform_none : Uniform none 1 := by
  rintro _ _ ⟨⟩
  rfl

namespace Search

/-- The distance known of a router. -/
def distance (s : Search) (router : Nat) : Nat := s.distances.getD router unreached

/-- A search that has looked along all wires of the first `read` routers of its queue. -/
structure Sorted (w : Wiring) (weights : Option (Array Nat)) (origin x read : Nat) (s : Search) : Prop where
  size_eq : s.distances.size = w.routerCount
  queue_nodup : s.queue.toList.Nodup
  queue_lt : ∀ router ∈ s.queue, router < w.routerCount
  mem_queue_iff : ∀ router, router ∈ s.queue ↔ s.distance router < unreached
  distance_le : ∀ router, s.distance router ≤ unreached
  distance_origin : s.distance origin = 0
  way : ∀ router ∈ s.queue, w.Way weights origin router (s.distance router)
  sorted : s.queue.toList.Pairwise fun a b => s.distance a ≤ s.distance b
  span : ∀ front, s.queue[read]? = some front → ∀ router ∈ s.queue, s.distance router ≤ s.distance front + x
  looked : ∀ i < read, ∀ router other weight, s.queue[i]? = some router → w.Wire weights router other weight →
    s.distance other ≤ s.distance router + x

/-- What a search has found, another one keeps: its queue goes on from there and no distance is greater. -/
structure Grows (s s' : Search) : Prop where
  queue_eq : ∀ i router : Nat, s.queue[i]? = some router → s'.queue[i]? = some router
  distance_eq : ∀ router ∈ s.queue, s'.distance router = s.distance router
  distance_le : ∀ router, s'.distance router ≤ s.distance router

theorem Grows.refl (s : Search) : s.Grows s := ⟨fun _ _ h => h, fun _ _ => rfl, fun _ => Nat.le_refl _⟩

theorem Grows.trans {s s' s'' : Search} (h : s.Grows s') (h' : s'.Grows s'') : s.Grows s'' where
  queue_eq i router hi := h'.queue_eq i router (h.queue_eq i router hi)
  distance_eq router hr := by
    obtain ⟨i, hi⟩ := Array.mem_iff_getElem?.mp hr
    rw [h'.distance_eq router (Array.mem_of_getElem? (h.queue_eq i router hi)), h.distance_eq router hr]
  distance_le router := Nat.le_trans (h'.distance_le router) (h.distance_le router)

/-! ### One wire -/

/-- Notes the distance of a router and puts it at the end of the queue. -/
def enqueue (s : Search) (other way : Nat) : Search :=
  ⟨s.distances.setIfInBounds other way, s.queue.push other⟩

section Enqueue

variable {s : Search} {way : Nat}

theorem distance_enqueue (hother : other < s.distances.size) (router : Nat) :
    (s.enqueue other way).distance router = if router = other then way else s.distance router := by
  by_cases hr : router = other
  · simp [enqueue, distance, Array.getD_eq_getD_getElem?, hr, hother]
  · simp [enqueue, distance, Array.getD_eq_getD_getElem?, hr, Ne.symm hr]

theorem mem_enqueue : router ∈ (s.enqueue other way).queue ↔ router ∈ s.queue ∨ router = other := Array.mem_push

theorem getElem?_enqueue {i : Nat} (h : i < s.queue.size) : (s.enqueue other way).queue[i]? = s.queue[i]? := by
  rw [enqueue, Array.getElem?_push, if_neg (by omega)]

/-- A router that is not in the queue yet comes nearer, and all that are in it stay as they are. -/
theorem Grows.enqueue (hother : other < s.distances.size) (hnew : other ∉ s.queue) (hle : way ≤ s.distance other) :
    s.Grows (s.enqueue other way) where
  queue_eq i router hi := (getElem?_enqueue (Array.getElem?_eq_some_iff.mp hi).1).trans hi
  distance_eq router hin := by
    rw [distance_enqueue hother, if_neg]
    rintro rfl
    exact hnew hin
  distance_le router := by
    rw [distance_enqueue hother]
    split
    · next heq => exact heq ▸ hle
    · exact Nat.le_refl _

end Enqueue

section Look

variable {s : Search} (h : s.Sorted w weights origin x read) (hfront : s.queue[read]? = some front)

include h

/-- The queue holds routers of the network, each at most once. -/
theorem Sorted.subperm : s.queue.toList.Subperm (List.range w.routerCount) :=
  List.subperm_of_subset h.queue_nodup fun a ha => List.mem_range.mpr (h.queue_lt a (Array.mem_toList_iff.mp ha))

/-- A queue that has no room holds every router. -/
theorem Sorted.mem_of_full (hfull : w.routerCount ≤ s.queue.size) (hr : router < w.routerCount) :
    router ∈ s.queue := by
  have hperm := h.subperm.perm_of_length_le (by simpa using hfull)
  exact Array.mem_toList_iff.mp (hperm.mem_iff.mpr (List.mem_range.mpr hr))

include hfront

/-- A router that is nearer than it was known to be has not been reached yet, and is put at the end of the queue. -/
theorem Sorted.push (hwire : w.Wire weights front other x) (hother : other < w.routerCount)
    (hnear : s.distance front + x < s.distance other) :
    (s.enqueue other (s.distance front + x)).Sorted w weights origin x read ∧
      s.Grows (s.enqueue other (s.distance front + x)) := by
  have hmem : front ∈ s.queue := Array.mem_of_getElem? hfront
  have hnew : other ∉ s.queue := fun hin => by
    have := h.span front hfront other hin
    omega
  have hsize : other < s.distances.size := by rwa [h.size_eq]
  have hgrows : s.Grows (s.enqueue other (s.distance front + x)) := .enqueue hsize hnew (by omega)
  have hset : (s.enqueue other (s.distance front + x)).distance other = s.distance front + x := by
    rw [distance_enqueue hsize, if_pos rfl]
  refine ⟨?_, hgrows⟩
  constructor
  case size_eq => simpa [enqueue] using h.size_eq
  case queue_nodup =>
    rw [enqueue, Array.toList_push, List.nodup_append]
    refine ⟨h.queue_nodup, List.pairwise_singleton _ _, fun a ha b hb heq => hnew ?_⟩
    rw [← List.mem_singleton.mp hb, ← heq]
    exact Array.mem_toList_iff.mp ha
  case queue_lt =>
    intro router hin
    rcases mem_enqueue.mp hin with hin | rfl
    · exact h.queue_lt router hin
    · exact hother
  case mem_queue_iff =>
    intro router
    have hlt := h.distance_le other
    rw [mem_enqueue, distance_enqueue hsize, h.mem_queue_iff]
    split
    · next heq => exact ⟨fun _ => by omega, fun _ => .inr heq⟩
    · next hne => exact ⟨fun hin => hin.resolve_right hne, .inl⟩
  case distance_le => exact fun router => Nat.le_trans (hgrows.distance_le router) (h.distance_le router)
  case distance_origin => exact Nat.eq_zero_of_le_zero (h.distance_origin ▸ hgrows.distance_le origin)
  case way =>
    intro router hin
    rcases mem_enqueue.mp hin with hin | rfl
    · rw [hgrows.distance_eq router hin]
      exact h.way router hin
    · rw [hset]
      exact .on (h.way front hmem) hwire
  case sorted =>
    rw [enqueue, Array.toList_push, List.pairwise_append]
    refine ⟨h.sorted.imp_of_mem fun ha hb hab => ?_, List.pairwise_singleton _ _, fun a ha b hb => ?_⟩
    · rw [← enqueue, hgrows.distance_eq _ (Array.mem_toList_iff.mp ha),
        hgrows.distance_eq _ (Array.mem_toList_iff.mp hb)]
      exact hab
    · rw [← enqueue, List.mem_singleton.mp hb, hset, hgrows.distance_eq a (Array.mem_toList_iff.mp ha)]
      exact h.span front hfront a (Array.mem_toList_iff.mp ha)
  case span =>
    intro front' hfront' router hin
    rw [hgrows.queue_eq read front hfront] at hfront'
    cases hfront'
    rw [hgrows.distance_eq front hmem]
    rcases mem_enqueue.mp hin with hin | rfl
    · rw [hgrows.distance_eq router hin]
      exact h.span front hfront router hin
    · exact Nat.le_of_eq hset
  case looked =>
    intro i hi router next weight hat hnext
    have hread := (Array.getElem?_eq_some_iff.mp hfront).1
    rw [getElem?_enqueue (by omega)] at hat
    rw [hgrows.distance_eq router (Array.mem_of_getElem? hat)]
    exact Nat.le_trans (hgrows.distance_le next) (h.looked i hi router next weight hat hnext)

/-- A router that is nearer than it was known to be finds room in the queue. -/
theorem Sorted.room (hother : other < w.routerCount) (hnear : s.distance front + x < s.distance other) :
    s.queue.size < w.routerCount := by
  by_contra hfull
  have := h.span front hfront other (h.mem_of_full (by omega) hother)
  omega

/-- **A look along one wire** of the router that is being visited. It is the same with more room in the queue. -/
theorem Sorted.look {link : Link} (hx : Uniform weights x) (hport : port < w.ports front)
    (hlink : w.link? front port = some link)
    (hin : ∀ other otherPort, link.peer = .router other otherPort → other < w.routerCount) :
    ∃ s', (∀ limit, w.routerCount ≤ limit → s.look limit weights (s.distance front) (some link) = .ok s') ∧
      s'.Sorted w weights origin x read ∧ s.Grows s' ∧ ∀ other otherPort weight, link.peer = .router other otherPort →
        weight? weights link.kind = some weight → s'.distance other ≤ s'.distance front + x := by
  rcases link with ⟨peer, kind⟩
  cases peer with
  | nothing => exact ⟨s, fun _ _ => rfl, h, .refl s, by rintro _ _ _ ⟨⟩⟩
  | server host => exact ⟨s, fun _ _ => rfl, h, .refl s, by rintro _ _ _ ⟨⟩⟩
  | router other otherPort =>
    have hother := hin other otherPort rfl
    simp only [Search.look]
    cases hweight : weight? weights kind with
    | none => exact ⟨s, fun _ _ => rfl, h, .refl s, by simp⟩
    | some weight =>
      obtain rfl := hx kind weight hweight
      have hknown : s.distances[other]? = some (s.distance other) := by
        rw [distance, Array.getD_eq_getD_getElem?, Array.getElem?_eq_getElem (by rwa [h.size_eq]), Option.getD_some]
      have hle := h.distance_le other
      dsimp only
      rw [hknown]
      dsimp only
      by_cases hnear : min (s.distance front + weight) unreached < s.distance other
      · have hway : min (s.distance front + weight) unreached = s.distance front + weight :=
          Nat.min_eq_left (by omega)
        rw [hway] at hnear ⊢
        have hroom := h.room hfront hother hnear
        obtain ⟨hpush, hgrows⟩ := h.push hfront ⟨port, otherPort, kind, hport, hlink, hweight⟩ hother hnear
        refine ⟨s.enqueue other (s.distance front + weight), fun limit hlimit => ?_, hpush, hgrows, ?_⟩
        · rw [if_pos ⟨hnear, Nat.lt_of_lt_of_le hroom hlimit⟩]
          rfl
        · rintro _ _ _ ⟨⟩ -
          refine Nat.le_of_eq ?_
          rw [hgrows.distance_eq front (Array.mem_of_getElem? hfront), distance_enqueue (by rwa [h.size_eq]),
            if_pos rfl]
      · refine ⟨s, fun limit _ => if_neg fun hpush => hnear hpush.1, h, .refl s, ?_⟩
        rintro _ _ _ ⟨⟩ -
        omega

end Look

/-! ### All wires of a router, and all routers of the queue -/

section Visits

variable {s : Search} (hw : w.Described) (hx : Uniform weights x)

include hw hx

theorem Sorted.look_all (h : s.Sorted w weights origin x read)
    (hfront : s.queue[read]? = some front) (ports : List Nat) (hports : ∀ port ∈ ports, port < w.ports front) :
    ∃ s', (∀ limit, w.routerCount ≤ limit →
        ports.foldlM (fun s port => s.look limit weights (s.distances.getD front unreached) (w.link? front port)) s =
          Except.ok s') ∧ s'.Sorted w weights origin x read ∧ s.Grows s' ∧
      ∀ port ∈ ports, ∀ other otherPort kind weight, w.link? front port = some ⟨.router other otherPort, kind⟩ →
        weight? weights kind = some weight → s'.distance other ≤ s'.distance front + x := by
  induction ports generalizing s with
  | nil => exact ⟨s, fun _ _ => rfl, h, .refl s, fun _ hp => absurd hp List.not_mem_nil⟩
  | cons port ports ih =>
    have hport := hports port List.mem_cons_self
    obtain ⟨link, hlink, hin⟩ := hw front port (h.queue_lt front (Array.mem_of_getElem? hfront)) hport
    obtain ⟨s₁, hlook, h₁, hgrows, hnear⟩ := h.look hfront hx hport hlink hin
    have hfront₁ := hgrows.queue_eq read front hfront
    obtain ⟨s', hrest, h', hgrows', hnear'⟩ :=
      ih h₁ hfront₁ fun port hp => hports port (List.mem_cons_of_mem _ hp)
    refine ⟨s', fun limit hlimit => ?_, h', hgrows.trans hgrows', ?_⟩
    · rw [List.foldlM_cons, hlink, show s.distances.getD front unreached = s.distance front from rfl,
        hlook limit hlimit]
      exact hrest limit hlimit
    · intro port' hp other otherPort kind weight hlink' hweight
      rcases List.mem_cons.mp hp with rfl | hp
      · rw [hlink] at hlink'
        cases hlink'
        rw [hgrows'.distance_eq front (Array.mem_of_getElem? hfront₁)]
        exact Nat.le_trans (hgrows'.distance_le other) (hnear other otherPort weight rfl hweight)
      · exact hnear' port' hp other otherPort kind weight hlink' hweight

/-- **A visit** to the router that is to be read next. -/
theorem Sorted.visit (h : s.Sorted w weights origin x read) (hfront : s.queue[read]? = some front) :
    ∃ s', (∀ limit, w.routerCount ≤ limit → s.visit w limit weights front = .ok s') ∧
      s'.Sorted w weights origin x (read + 1) := by
  obtain ⟨s', hvisit, h', hgrows, hnear⟩ := h.look_all hw hx hfront (List.range (w.ports front))
    fun port hp => List.mem_range.mp hp
  have hfront' := hgrows.queue_eq read front hfront
  refine ⟨s', hvisit, { h' with span := ?_, looked := ?_ }⟩
  · intro next hnext router hin
    have hsorted : s'.distance front ≤ s'.distance next := by
      obtain ⟨hi, hat⟩ := Array.getElem?_eq_some_iff.mp hfront'
      obtain ⟨hj, hat'⟩ := Array.getElem?_eq_some_iff.mp hnext
      have := List.pairwise_iff_getElem.mp h'.sorted read (read + 1) (by simpa using hi) (by simpa using hj)
        (Nat.lt_succ_self read)
      simpa [hat, hat'] using this
    have := h'.span front hfront' router hin
    omega
  · intro i hi router other weight hat hwire
    rcases Nat.lt_succ_iff_lt_or_eq.mp hi with hi | rfl
    · exact h'.looked i hi router other weight hat hwire
    · rw [hfront'] at hat
      cases hat
      obtain ⟨port, otherPort, kind, hport, hlink, hweight⟩ := hwire
      exact hnear port (List.mem_range.mpr hport) other otherPort kind weight hlink hweight

/-- A search looks along all wires of all routers it reaches. With as many steps as there are routers left to be
read it has come to its end: more steps and more room change nothing. -/
theorem Sorted.run (left : Nat) (h : s.Sorted w weights origin x read) (hleft : w.routerCount ≤ left + read) :
    ∃ s' read', (∀ limit steps, w.routerCount ≤ limit → w.routerCount ≤ steps + read →
        Search.run w limit weights steps read s = .ok s') ∧
      s'.Sorted w weights origin x read' ∧ s'.queue.size ≤ read' := by
  have hle := h.subperm.length_le
  rw [Array.length_toList, List.length_range] at hle
  induction left generalizing s read with
  | zero =>
    have hnone : s.queue[read]? = none := Array.getElem?_eq_none_iff.mpr (by omega)
    refine ⟨s, read, fun limit steps _ _ => ?_, h, by omega⟩
    cases steps with
    | zero => rfl
    | succ steps => rw [Search.run, hnone]
  | succ left ih =>
    cases hfront : s.queue[read]? with
    | none =>
      refine ⟨s, read, fun limit steps _ _ => ?_, h, Array.getElem?_eq_none_iff.mp hfront⟩
      cases steps with
      | zero => rfl
      | succ steps => rw [Search.run, hfront]
    | some front =>
      have hread := (Array.getElem?_eq_some_iff.mp hfront).1
      obtain ⟨s₁, hvisit, h₁⟩ := h.visit hw hx hfront
      have hle₁ := h₁.subperm.length_le
      rw [Array.length_toList, List.length_range] at hle₁
      obtain ⟨s', read', hrun, h', hend⟩ := ih h₁ (by omega) hle₁
      refine ⟨s', read', fun limit steps hlimit hsteps => ?_, h', hend⟩
      cases steps with
      | zero => omega
      | succ steps =>
        rw [Search.run, hfront]
        dsimp only
        rw [hvisit limit hlimit]
        exact hrun limit steps hlimit (by omega)

end Visits

/-- When the queue has been read to its end, no way is shorter than the distance found. -/
theorem Sorted.distance_le_of_way {s : Search} (h : s.Sorted w weights origin x read) (hend : s.queue.size ≤ read)
    (hx : Uniform weights x) {cost : Nat} (hway : w.Way weights origin router cost) : s.distance router ≤ cost := by
  induction hway with
  | start => exact Nat.le_of_eq h.distance_origin
  | @on router other cost weight hway hwire ih =>
    have ⟨_, _, kind, _, _, hweight⟩ := hwire
    by_cases hreached : s.distance router < unreached
    · obtain ⟨i, hi⟩ := Array.mem_iff_getElem?.mp ((h.mem_queue_iff router).mpr hreached)
      have hlt := (Array.getElem?_eq_some_iff.mp hi).1
      have := h.looked i (by omega) router other weight hi hwire
      rw [← hx kind weight hweight] at this
      omega
    · have := h.distance_le other
      omega

/-- A search that knows of its origin alone. -/
def start (w : Wiring) (origin : Nat) : Search :=
  ⟨(Array.replicate w.routerCount unreached).setIfInBounds origin 0, #[origin]⟩

theorem mem_start : router ∈ (start w origin).queue ↔ router = origin := by simp [start]

theorem distance_start (ho : origin < w.routerCount) (router : Nat) :
    (start w origin).distance router = if router = origin then 0 else unreached := by
  by_cases hr : router = origin
  · simp [start, distance, Array.getD_eq_getD_getElem?, hr, ho]
  · by_cases hlt : router < w.routerCount <;>
      simp [start, distance, Array.getD_eq_getD_getElem?, Ne.symm hr, hlt, hr]

theorem sorted_start (weights : Option (Array Nat)) (x : Nat) (ho : origin < w.routerCount) :
    (start w origin).Sorted w weights origin x 0 := by
  have hdistance := distance_start (w := w) ho
  constructor
  case size_eq => simp [start]
  case queue_nodup => simp [start]
  case queue_lt =>
    intro router hin
    obtain rfl := mem_start.mp hin
    exact ho
  case mem_queue_iff =>
    intro router
    rw [hdistance]
    split
    · next h => simp [mem_start, h, unreached]
    · next h => simp [mem_start, h]
  case distance_le =>
    intro router
    rw [hdistance]
    split
    · exact Nat.zero_le _
    · exact Nat.le_refl _
  case distance_origin => rw [hdistance, if_pos rfl]
  case way =>
    intro router hin
    obtain rfl := mem_start.mp hin
    rw [hdistance, if_pos rfl]
    exact .start
  case sorted => simp [start]
  case span =>
    intro front _ router hin
    obtain rfl := mem_start.mp hin
    rw [hdistance, if_pos rfl]
    exact Nat.zero_le _
  case looked => exact fun i hi => absurd hi (Nat.not_lt_zero i)

end Search

/-- The distances are those of a search that has room, and steps, for every router at least. -/
theorem distancesFrom_of_run {s : Search} (ho : origin < w.routerCount)
    (hlimit : w.routerCount ≤ visitLimit w.routerCount weights)
    (hroom : Storage.holds (visitLimit w.routerCount weights) 8)
    (hrun : Search.run w (visitLimit w.routerCount weights) weights (visitLimit w.routerCount weights) 0
      (.start w origin) = .ok s) : w.distancesFrom origin weights = .ok s.distances := by
  rw [Search.start] at hrun
  have hrow := Storage.holds_of_le hroom hlimit
  rw [distancesFrom]
  dsimp only
  rw [if_neg (by simp [hrow, hroom]), if_neg (by omega), hrun]
  rfl

/-- No search is made whose queue does not fit in one place. -/
theorem distancesFrom_eq_abort (hroom : ¬ Storage.holds (visitLimit w.routerCount weights) 8) :
    w.distancesFrom origin weights = .error .abort := by
  rw [distancesFrom]
  dsimp only
  rw [if_pos (by simp [hroom])]
  rfl

/-- Distances between all routers that do not fit in one place are not looked for. -/
theorem distances_eq_abort (hroom : ¬ Storage.holds (w.routerCount * w.routerCount) 8) :
    w.distances weights = .error .abort := by
  rw [distances, if_pos (by simp [hroom])]
  rfl

theorem diameter_eq_abort (hroom : ¬ Storage.holds (w.routerCount * w.routerCount) 8) :
    w.diameter = .error .abort := by
  rw [diameter, distances_eq_abort hroom]
  rfl

/-- Where the distances between all routers fit in one place, the queue of each search does. -/
theorem holds_visitLimit_none (hroom : Storage.holds (w.routerCount * w.routerCount) 8) :
    Storage.holds (visitLimit w.routerCount none) 8 :=
  Storage.holds_of_le hroom (Nat.le_mul_self w.routerCount)

/-- **Distances are those of the shortest ways**, if all wires that are used count the same: the distance found
of a router is at most what any way there costs, and it is what some way costs as long as it is less than that
of a router that is not reached. -/
theorem distancesFrom_eq_ok (hw : w.Described) (ho : origin < w.routerCount)
    (hlimit : w.routerCount ≤ visitLimit w.routerCount weights)
    (hroom : Storage.holds (visitLimit w.routerCount weights) 8) (hx : Uniform weights x) :
    ∃ found, w.distancesFrom origin weights = .ok found ∧ found.size = w.routerCount ∧
      ∀ router distance, found[router]? = some distance →
        (∀ cost, w.Way weights origin router cost → distance ≤ cost) ∧
        (distance < unreached → w.Way weights origin router distance) := by
  obtain ⟨s, read, hrun, h, hend⟩ := (Search.sorted_start weights x ho).run hw hx w.routerCount (Nat.le_refl _)
  have hdistances := distancesFrom_of_run ho hlimit hroom (hrun _ _ hlimit hlimit)
  refine ⟨s.distances, hdistances, h.size_eq, fun router distance hfound => ?_⟩
  have heq : s.distance router = distance := by
    rw [Search.distance, Array.getD_eq_getD_getElem?, hfound, Option.getD_some]
  rw [← heq]
  exact ⟨fun cost hway => h.distance_le_of_way hend hx hway,
    fun hlt => h.way router ((h.mem_queue_iff router).mpr hlt)⟩

/-! ### The greatest distance -/

/-- **The diameter is at most what it takes to come from any router to any other.** -/
theorem diameter_le (hw : w.Described) (hroom : Storage.holds (w.routerCount * w.routerCount) 8) (bound : Nat)
    (hways : ∀ origin router, origin < w.routerCount → router < w.routerCount →
      ∃ cost ≤ bound, w.Way none origin router cost) : ∃ d, w.diameter = .ok d ∧ d ≤ bound := by
  have hfrom : ∀ origin ∈ List.range w.routerCount, ∃ found, w.distancesFrom origin none = .ok found ∧
      ∀ d ∈ found, d ≤ bound := by
    intro origin ho
    have ho := List.mem_range.mp ho
    obtain ⟨found, hfound, hsize, hleast⟩ :=
      distancesFrom_eq_ok hw ho (Nat.le_refl _) (holds_visitLimit_none hroom) uniform_none
    refine ⟨found, hfound, fun d hd => ?_⟩
    obtain ⟨router, hat⟩ := Array.mem_iff_getElem?.mp hd
    have hr := (Array.getElem?_eq_some_iff.mp hat).1
    obtain ⟨cost, hcost, hway⟩ := hways origin router ho (by omega)
    exact Nat.le_trans ((hleast router d hat).1 cost hway) hcost
  obtain ⟨rows, hrows, hbound⟩ := exists_mapM_ok hfrom
  refine ⟨_, by rw [diameter, distances, if_neg (by simp [hroom]), hrows]; rfl, ?_⟩
  refine List.foldlRecOn (motive := (· ≤ bound)) _ max (Nat.zero_le bound) fun most hmost d hd => ?_
  refine Nat.max_le.mpr ⟨hmost, ?_⟩
  obtain ⟨⟨_, i⟩, hmem, hd⟩ := List.mem_filterMap.mp hd
  obtain ⟨-, rfl⟩ : _ ∧ _ = d := by simpa using hd
  obtain ⟨row, hrow, hin⟩ : ∃ row ∈ rows, _ ∈ row := by
    simpa using List.fst_mem_of_mem_zipIdx hmem
  exact hbound row hrow _ hin

end DragonflyFabric.Wiring
