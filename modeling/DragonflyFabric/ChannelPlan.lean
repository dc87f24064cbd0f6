import DragonflyFabric.Fault
import DragonflyFabric.Storage

/-!
The traffic classes of a router. Each has an algorithm and its own virtual channels, as many as the
algorithm needs; the classes lie one after another from channel zero on.
-/

namespace DragonflyFabric

structure TrafficClass where
  /-- Its first channel. -/
  start : Nat
  channels : Nat
  algorithm : Algorithm
  deriving DecidableEq, Inhabited

namespace TrafficClass

/-- The channel behind its last one. -/
def stop (c : TrafficClass) : Nat := c.start + c.channels

def contains (c : TrafficClass) (channel : Nat) : Bool := c.start ≤ channel && channel < c.stop

end TrafficClass

structure ChannelPlan where
  classes : Array TrafficClass
  deriving DecidableEq, Inhabited

namespace ChannelPlan

/-- Classes for a list of algorithms, from a channel on. -/
def layOut (start : Nat) : List Algorithm → List TrafficClass
  | [] => []
  | a :: rest => ⟨start, a.channels, a⟩ :: layOut (start + a.channels) rest

/-- The algorithm of each class: the only one for all of them, or one for each. -/
def assign (count : Nat) : List Algorithm → Except Fault (List Algorithm)
  | [a] => .ok (List.replicate count a)
  | algorithms =>
    if algorithms.length < count then .error (.noAlgorithm algorithms.length) else .ok algorithms

/-- The plan of so many classes, for which there has to be room: twenty-four bytes for each. -/
def make (count : Nat) (algorithms : List Algorithm) : Except Fault ChannelPlan := do
  if count = 0 then
    throw (.parameters .noNetwork)
  if count < algorithms.length then
    throw (.parameters (.tooManyAlgorithms algorithms.length count))
  if !Storage.holds count 24 then
    throw .abort
  let each ← assign count algorithms
  return ⟨(layOut 0 each).toArray⟩

variable (plan : ChannelPlan)

def size : Nat := plan.classes.size

/-- The number of channels of all classes. -/
def total : Nat := plan.classes.toList.foldr (fun c n => c.channels + n) 0

/-- A router needs channels for all classes. -/
def checkFits (channels : Nat) : Except Fault Unit :=
  if channels < plan.total then .error (.parameters (.tooFewChannels plan.total channels)) else .ok ()

def get (index : Nat) : Except Fault TrafficClass :=
  match plan.classes[index]? with
  | some c => .ok c
  | none => .error (.noAlgorithm index)

/-- The class a channel belongs to, with its index. -/
def classOf (channel : Nat) : Except Fault (Nat × TrafficClass) :=
  match plan.classes.toList.zipIdx.find? fun (c, _) => c.contains channel with
  | some (c, index) => .ok (index, c)
  | none => .error (.noSuchChannel channel plan.total)

def channelsOf (index : Nat) : Except Fault Nat := do
  let c ← plan.get index
  return c.channels

/-- Writes the channels of each class into a buffer that has one entry for each. Any other buffer is left
as it is. -/
def fill (buffer : List Nat) : Except Fault Unit × List Nat :=
  if buffer.length = plan.size then
    (.ok (), plan.classes.toList.map (·.channels))
  else
    (.error (.parameters (.bufferSize buffer.length plan.size)), buffer)

/-- What a new buffer of so many entries, eight bytes each, holds once it is filled. -/
def filled (entries : Nat) : Except Fault (List Nat) :=
  if Storage.holds entries 8 then
    let (result, buffer) := plan.fill (List.replicate entries 0)
    result.map fun _ => buffer
  else
    .error .abort

end ChannelPlan

end DragonflyFabric
