import DragonflyFabric.Congestion
import DragonflyFabric.Random.Draw
import DragonflyFabric.Settings.Reading

/-!
A router: its site, which never changes, and what does change while packets pass.
-/

namespace DragonflyFabric

/-- A place in the network together with all that the network tells the router there. -/
structure Site where
  parameters : Parameters
  /-- The number of the router in the whole network. -/
  index : Nat
  numbering : Numbering
  table : ExitTable.View
  plan : ChannelPlan
  threshold : Float
  policy : SlotPolicy
  /-- Virtual channels per port. -/
  channels : Nat

namespace Site

variable (s : Site)

def group : Nat := s.parameters.groupOf s.index

/-- The position of the router in its group. -/
def position : Nat := s.parameters.positionOf s.index

end Site

/-- A congestion array that a router looks at. While it is held by another hand it cannot be read. -/
structure Meter where
  levels : Array Int
  held : Bool

structure Router where
  site : Site
  /-- The next slot toward each group, for the policy that takes each in turn. -/
  counters : Array Nat
  random : Random.Stream
  credits : Option Meter
  queues : Option Meter

namespace Router

/-- The router at a place of a network, over a view of its table, with the ports and channels it has. -/
def install (settings : Settings) (table : ExitTable.View) (index ports channels : Nat) :
    Except Fault Router := do
  let p := settings.parameters
  p.checkRadix ports
  if p.routerCount ≤ index then
    throw (.parameters (.noSuchRouter index p.routerCount))
  if table.rows ≠ p.rows ∨ table.slots ≠ p.links then
    throw (.parameters (.foreignTable table.rows table.slots p.groups p.links))
  let plan ← settings.plan
  plan.checkFits channels
  return {
    site :=
      { parameters := p
        index := index
        numbering := settings.numbering
        table := table
        plan := plan
        threshold := settings.threshold
        policy := settings.policy
        channels := channels }
    counters := Array.replicate p.groups 0
    random := .ofSeed (UInt64.ofNat settings.seed + UInt64.ofNat index)
    credits := none
    queues := none }

def setCredits (r : Router) (levels : Array Int) : Router := { r with credits := some ⟨levels, false⟩ }

def setQueues (r : Router) (levels : Array Int) : Router := { r with queues := some ⟨levels, false⟩ }

def meter (r : Router) : Gauge → Option Meter
  | .credits => r.credits
  | .queues => r.queues

def setMeter (r : Router) (g : Gauge) (m : Option Meter) : Router :=
  match g with
  | .credits => { r with credits := m }
  | .queues => { r with queues := m }

/-- Holds an array, or lets go of it. -/
def hold (r : Router) (g : Gauge) (held : Bool) : Router :=
  r.setMeter g ((r.meter g).map fun m => { m with held := held })

/-- Changes one level of an array. There has to be such a level. -/
def setLevel (r : Router) (g : Gauge) (index : Nat) (level : Int) : Except Fault Router :=
  match r.meter g with
  | some m =>
    if index < m.levels.size then
      .ok (r.setMeter g (some { m with levels := m.levels.setIfInBounds index level }))
    else .error .abort
  | none => .error .abort

/-- The levels of an array, all zero when there is none. -/
def levels (r : Router) (g : Gauge) : Except Fault (Array Int) :=
  match r.meter g with
  | none => .ok #[]
  | some m => if m.held then .error (.busy g) else .ok m.levels

/-- What the router sees of its output buffers. -/
def congestion (r : Router) : Except Fault Congestion := do
  let credits ← r.levels .credits
  let queues ← r.levels .queues
  return ⟨credits, queues, r.site.channels⟩

end Router

end DragonflyFabric
