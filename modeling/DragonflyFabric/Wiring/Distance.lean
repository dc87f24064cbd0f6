import DragonflyFabric.Fault
import DragonflyFabric.Grid
import DragonflyFabric.Wiring.Basic

/-!
Distances between routers, by breadth first search.

Without weights every wire counts one and the distances are exact. With a weight for each class of wires a
router is visited again whenever a shorter way to it is found, but only while the queue has room, so
that a distance found may be longer than the shortest.
-/

namespace DragonflyFabric.Wiring

/-- The distance to a router that no way leads to. Sums stop there. -/
def unreached : Nat := 0xffffffffffffffff

/-- The weight of a class of wires. Classes without a weight, and those of the greatest weight, are not
used. -/
def weight? (weights : Option (Array Nat)) (kind : Nat) : Option Nat :=
  match weights with
  | none => some 1
  | some ws => ws[kind]?.filter (· ≠ unreached)

/-- How many visits a search has room for. -/
def visitLimit (routers : Nat) (weights : Option (Array Nat)) : Nat :=
  match weights with
  | none => routers
  | some ws => Word.wrap (routers * ws.size)

/-- The distances known so far and the routers in the order of their visits. -/
structure Search where
  distances : Array Nat
  queue : Array Nat

namespace Search

/-- Looks along one wire of a router at the given distance. -/
def look (limit : Nat) (weights : Option (Array Nat)) (distance : Nat) (s : Search) :
    Option Link → Except Fault Search
  | none => .error .abort
  | some ⟨.router other _, kind⟩ =>
    match weight? weights kind with
    | none => .ok s
    | some weight =>
      let way := min (distance + weight) unreached
      match s.distances[other]? with
      | none => .error .abort
      | some known =>
        if way < known ∧ s.queue.size < limit then
          .ok ⟨s.distances.setIfInBounds other way, s.queue.push other⟩
        else
          .ok s
  | some _ => .ok s

/-- Looks along all wires of a router. -/
def visit (w : Wiring) (limit : Nat) (weights : Option (Array Nat)) (s : Search) (router : Nat) :
    Except Fault Search :=
  (List.range (w.ports router)).foldlM
    (fun s port => s.look limit weights (s.distances.getD router unreached) (w.link? router port)) s

/-- Visits the routers of the queue from the one at `read` on, at most `steps` of them. -/
def run (w : Wiring) (limit : Nat) (weights : Option (Array Nat)) :
    Nat → Nat → Search → Except Fault Search
  | 0, _, s => .ok s
  | steps + 1, read, s =>
    match s.queue[read]? with
    | none => .ok s
    | some router => do
      let s ← s.visit w limit weights router
      run w limit weights steps (read + 1) s

end Search

/-- The distances from a router to all routers, as long as there is room for them and for the queue. -/
def distancesFrom (w : Wiring) (origin : Nat) (weights : Option (Array Nat)) :
    Except Fault (Array Nat) := do
  let limit := visitLimit w.routerCount weights
  if !Storage.holds w.routerCount 8 ∨ !Storage.holds limit 8 then
    throw .abort
  if w.routerCount ≤ origin ∨ limit = 0 then
    throw .abort
  let start := (Array.replicate w.routerCount unreached).setIfInBounds origin 0
  let found ← Search.run w limit weights limit 0 ⟨start, #[origin]⟩
  return found.distances

/-- The distances between all routers, as long as there is room for them all. -/
def distances (w : Wiring) (weights : Option (Array Nat)) : Except Fault (Grid Nat) := do
  if !Storage.holds (w.routerCount * w.routerCount) 8 then
    throw .abort
  let rows ← (List.range w.routerCount).mapM (w.distancesFrom · weights)
  return ⟨(rows.map Array.toList).flatten.toArray, w.routerCount⟩

/-- The greatest distance between two routers; `unreached` when some router cannot be reached. -/
def diameter (w : Wiring) : Except Fault Nat := do
  let all ← w.distances none
  return all.offDiagonal.foldl max 0

end DragonflyFabric.Wiring
