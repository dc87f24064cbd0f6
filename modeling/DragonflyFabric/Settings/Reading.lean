import DragonflyFabric.ChannelPlan
import DragonflyFabric.Exits.Table
import DragonflyFabric.Fabric
import DragonflyFabric.Language.Reading
import DragonflyFabric.Numbering
import DragonflyFabric.Parameters.Checks

/-!
The settings of a network, read from a `Dragonfly` object.

Fields are read one by one in the order they stand, the last of each name counts, and a field of an
unknown name is a fault wherever it stands; only `legend_name` may stand anywhere and means nothing. What
the fields say together is checked afterwards.
-/

namespace DragonflyFabric

open DragonflyFabric.Language (Value)

/-- The fields of an object of the given name. -/
def Language.Value.readFields (expected : String) (v : Value) : Except Fault (List (String × Value)) :=
  match v with
  | .object name fields =>
    if name = expected then .ok fields else .error (.value (.otherObject expected name) v)
  | _ => .error (.value (.notObject expected) v)

/-- An algorithm is a literal with its name or an object without fields. -/
def Algorithm.ofValue : Value → Except Fault Algorithm
  | .literal name => ((ofName? name).map .ok).getD (.error (.unknownAlgorithm name))
  | .object name [] => ((ofObjectName? name).map .ok).getD (.error (.unknownAlgorithm name))
  | v => .error (.value .notAlgorithm v)

def Algorithm.ofName (name : String) : Except Fault Algorithm := ofValue (.literal name)

def Numbering.ofName (name : String) : Except Fault Numbering :=
  match ofName? name with
  | some n => .ok n
  | none => .error (.value .notNumbering (.literal name))

namespace SlotPolicy

/-- The slot of a `Fixed` object; zero when it has none. -/
def readSlot (v : Value) : Except Fault Nat := do
  let fields ← v.readFields "Fixed"
  fields.foldlM
    (fun slot (key, value) =>
      if key = "slot" then value.readCount
      else if key = "legend_name" then .ok slot
      else .error (.value (.unknownField key "Fixed") v))
    0

/-- A policy is an object. Only the fields of `Fixed` are looked at. -/
def ofValue (v : Value) : Except Fault SlotPolicy :=
  match v with
  | .object name _ =>
    if name = "Fixed" then fixed <$> readSlot v
    else if name = "RoundRobin" then .ok roundRobin
    else if name = "SourceHash" then .ok sourceHash
    else if name = "Random" then .ok random
    else .error (.value (.unknownPolicy name) v)
  | _ => .error (.value .notPolicyObject v)

end SlotPolicy

/-- All that the routers of a network share. -/
structure Settings where
  parameters : Parameters
  /-- The number of traffic classes. -/
  networks : Nat
  /-- One for each traffic class, or one for all of them. -/
  algorithms : List Algorithm
  /-- A packet turns when the straight way costs more than this times the other. -/
  threshold : Float
  linkMap : LinkMap
  numbering : Numbering
  policy : SlotPolicy
  /-- Each router adds its number to this and takes the sum as its own seed. -/
  seed : Nat
  deriving DecidableEq

namespace Settings

/-- What the fields say, one by one. -/
structure Fields where
  hosts : Option Nat := none
  routers : Option Nat := none
  exits : Option Nat := none
  groups : Option Nat := none
  links : Nat := 1
  algorithms : List Algorithm := []
  networks : Option Nat := none
  threshold : Float := 2.0
  linkMap : Option (List Int) := none
  numbering : Numbering := .relative
  policy : SlotPolicy := .sourceHash
  seed : Nat := 0
  radix : Option Nat := none

/-- The algorithms of a list, or of a single value. -/
def readAlgorithms : Value → Except Fault (List Algorithm)
  | .array items => items.mapM Algorithm.ofValue
  | v => do
    let a ← Algorithm.ofValue v
    return [a]

def readLinks (v : Value) : Except Fault (List Int) := do
  let items ← v.readArray
  items.mapM Value.readInteger

def readNumbering (v : Value) : Except Fault Numbering := do
  let name ← v.readLiteral
  Numbering.ofName name

/-- Takes one field of the object `whole` into account. -/
def Fields.read (whole : Value) (f : Fields) (key : String) (v : Value) : Except Fault Fields :=
  if key = "hosts_per_router" then do return { f with hosts := some (← v.readCount) }
  else if key = "routers_per_group" then do return { f with routers := some (← v.readCount) }
  else if key = "intergroup_per_router" then do return { f with exits := some (← v.readCount) }
  else if key = "intergroup_links" then do return { f with links := ← v.readCount }
  else if key = "num_groups" then do return { f with groups := some (← v.readCount) }
  else if key = "algorithm" then do return { f with algorithms := ← readAlgorithms v }
  else if key = "num_vns" then do return { f with networks := some (← v.readCount) }
  else if key = "adaptive_threshold" then do return { f with threshold := ← v.readNumber }
  else if key = "global_link_map" then do return { f with linkMap := some (← readLinks v) }
  else if key = "global_route_mode" then do return { f with numbering := ← readNumbering v }
  else if key = "link_slot_policy" then do return { f with policy := ← SlotPolicy.ofValue v }
  else if key = "seed" then do return { f with seed := ← v.readCount }
  else if key = "radix" then do return { f with radix := some (← v.readCount) }
  else if key = "legend_name" then .ok f
  else .error (.value (.unknownField key "Dragonfly") whole)

/-- The counts, all of which but the parallel links have to be given. -/
def Fields.parameters (whole : Value) (f : Fields) : Except Fault Parameters := do
  let need (field : String) (given : Option Nat) : Except Fault Nat :=
    (given.map .ok).getD (.error (.value (.missingField field) whole))
  let hosts ← need "hosts_per_router" f.hosts
  let routers ← need "routers_per_group" f.routers
  let exits ← need "intergroup_per_router" f.exits
  let groups ← need "num_groups" f.groups
  Parameters.check ⟨hosts, routers, exits, groups, f.links⟩

/-- The radix, where it is given, has to be that of the counts. -/
def Fields.checkRadix (f : Fields) (p : Parameters) : Except Fault Unit :=
  match f.radix with
  | some radix => p.checkRadix radix
  | none => .ok ()

/-- There has to be some algorithm. -/
def Fields.checkAlgorithms (f : Fields) : Except Fault Unit :=
  if f.algorithms.isEmpty then .error (.noAlgorithm 0) else .ok ()

/-- The threshold has to be positive. Below one it favours the other way over the straight one. -/
def checkThreshold (threshold : Float) : Report Unit := do
  if !(0.0 < threshold) then
    throw (.value .thresholdNotPositive (.number threshold))
  if threshold < 1.0 then
    Report.warn (.lowThreshold threshold)

/-- A fixed slot must be one of the parallel links; the others then stay idle. -/
def checkPolicy (links : Nat) : SlotPolicy → Report Unit
  | .fixed slot => do
    if links ≤ slot then
      throw (.parameters (.fixedSlot slot links))
    if 1 < links then
      Report.warn (.singleSlot slot links)
  | _ => return

/-- The link map: the one that is given, or the links in order. -/
def Fields.map (f : Fields) (p : Parameters) : Report LinkMap :=
  match f.linkMap with
  | some entries => LinkMap.ofEntries p entries.toArray
  | none => LinkMap.spread p

/-- The traffic classes. -/
def plan (s : Settings) : Except Fault ChannelPlan := ChannelPlan.make s.networks s.algorithms

/-- What the fields say together. -/
def ofFields (whole : Value) (f : Fields) : Report Settings := do
  let p ← liftM (f.parameters whole)
  liftM (f.checkRadix p)
  liftM f.checkAlgorithms
  checkThreshold f.threshold
  checkPolicy f.links f.policy
  let map ← f.map p
  let s : Settings :=
    { parameters := p
      networks := f.networks.getD f.algorithms.length
      algorithms := f.algorithms
      threshold := f.threshold
      linkMap := map
      numbering := f.numbering
      policy := f.policy
      seed := f.seed }
  discard (liftM s.plan)
  return s

/-- The settings a value gives. -/
def ofValue (v : Value) : Report Settings := do
  let fields ← liftM (v.readFields "Dragonfly")
  let f ← liftM (fields.foldlM (fun (f : Fields) (key, value) => f.read v key value) {})
  ofFields v f

/-- A view of the exit table that every router of the network uses. -/
def table (s : Settings) : Except Fault ExitTable.View := ExitTable.View.ofLinkMap s.parameters s.linkMap

/-- The network over such a table. -/
def fabric (s : Settings) (table : ExitTable.View) : Report Fabric :=
  Fabric.build s.parameters s.numbering table s.linkMap

end Settings

end DragonflyFabric
