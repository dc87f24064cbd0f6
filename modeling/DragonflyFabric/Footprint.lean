import DragonflyFabric.Network

/-!
How much memory values take, and how such amounts are written.
-/

namespace DragonflyFabric

namespace Footprint

/-- How a value lies in memory. -/
inductive Shape
  | scalar (bytes : Nat)
  /-- Items in a row, with room of `slot` bytes for each of `spare` more. -/
  | row (items : List Shape) (spare slot : Nat)
  | text (capacity : Nat)
  /-- Values side by side. -/
  | group (parts : List Shape)
  /-- A value that may be missing, and what it takes when it is. -/
  | absent (bytes : Nat)
  /-- A value shared with others, counted where it belongs: here is only the pointer. -/
  | shared
  /-- A pointer whose target may still change, so that nothing can be said ahead. -/
  | handle
  /-- A value that may be lent out, which takes a mark beside it; nothing can be said ahead. -/
  | lent (inner : Shape) (own : Nat)

/-- The bytes of a pointer, and of any number as wide. -/
def word : Nat := 8

/-- The bytes of the header of a row or a text. -/
def header : Nat := 3 * word

mutual

/-- The bytes a value takes now. -/
def Shape.total : Shape → Nat
  | .scalar bytes => bytes
  | .row items spare slot => header + totals items + spare * slot
  | .text capacity => header + capacity
  | .group parts => totals parts
  | .absent bytes => bytes
  | .shared => word
  | .handle => word
  | .lent inner own => inner.total + own

def totals : List Shape → Nat
  | [] => 0
  | s :: rest => s.total + totals rest

end

/-- The bytes a value is expected to take in the long run. -/
def Shape.forecast : Shape → Except Fault Nat
  | .handle => .error .abort
  | .lent _ _ => .error .abort
  | s => .ok s.total

/-- A row of numbers of four bytes each, with room for `capacity` of them. -/
def Shape.numbers (length capacity : Nat) : Except Fault Shape :=
  if Storage.holds capacity 4 then
    .ok (.row (List.replicate length (.scalar 4)) (capacity - length) 4)
  else
    .error .abort

/-- The bytes of a grid of words. -/
def ofGrid (g : Grid Nat) : Nat := header + word + header + word * g.cells.size

def ofParameters : Nat := 5 * word

def ofAddress : Nat := 20

def ofPacket : Nat := 5 * word + 4 + ofAddress + 2 * 2

/-- The bytes of a view: the table itself belongs to no router. -/
def ofView : Nat := header

def ofPlan (plan : ChannelPlan) : Nat := header + 2 * word * plan.size

def ofPolicy : SlotPolicy → Nat
  | .fixed _ => word
  | _ => 0

def ofPeer : Peer → Nat
  | .router _ _ => 2 * word
  | .server _ => word
  | .nothing => 0

/-- A port that serves a link takes two words, and one that serves none a word more. -/
def ofServed : Option (Nat × Nat) → Nat
  | some _ => 2 * word
  | none => 3 * word

def ofFabric (f : Fabric) : Nat :=
  ofParameters + ofView + header + f.served.toList.foldr (fun served n => ofServed served + n) 0

def ofRouter (r : Router) : Nat := 440 + ofView + ofPlan r.site.plan + (header + word * r.counters.size)

/-- An amount of bytes, in the unit that keeps it below three thousand where there is one. -/
def amount (bytes : Nat) : String :=
  let unit (name : String) (x : Float) : String := Decimal.Style.plain.write x ++ name
  if bytes < 3000 then toString bytes ++ " bytes"
  else
    let kilo := Decimal.nearest false bytes 0 / 1024.0
    if kilo < 3000.0 then unit " KB" kilo
    else
      let mega := kilo / 1024.0
      if mega < 3000.0 then unit " MB" mega else unit " GB" (mega / 1024.0)

/-- What the parts of a router take, line by line. -/
def report (r : Router) : String :=
  s!"DragonflyRouting of router {r.site.index}: {amount (ofRouter r)}\n"
    ++ s!"\ttable view: {amount ofView}\n"
    ++ s!"\tvirtual networks: {amount (ofPlan r.site.plan)}\n"

end Footprint

end DragonflyFabric
