import DragonflyFabric.Wiring.Link

/-!
A network of routers and servers as seen from its ports: what every port of every router leads to, and
where every server is attached. What is not described is `none`.
-/

namespace DragonflyFabric

structure Wiring where
  routerCount : Nat
  serverCount : Nat
  /-- The number of ports of a router. -/
  ports? : Nat → Option Nat
  /-- How many ports of a router are for other routers, connected or not. -/
  degree? : Nat → Option Nat
  /-- What a port of a router leads to. -/
  link? : Nat → Nat → Option Link
  /-- What a server is attached to. -/
  serverLink? : Nat → Option Link

namespace Wiring

/-- The number of ports of a router, and none for a router that is not described. -/
def ports (w : Wiring) (router : Nat) : Nat := (w.ports? router).getD 0

/-- A network given by lists: for each router what its ports lead to, and for each server where it is
attached. -/
def ofLists (routers : Array (Array Link)) (servers : Array Link) : Wiring where
  routerCount := routers.size
  serverCount := servers.size
  ports? router := routers[router]?.map (·.size)
  degree? router := routers[router]?.map (·.size)
  link? router port := routers[router]?.bind (·[port]?)
  serverLink? server := servers[server]?

end Wiring

end DragonflyFabric
