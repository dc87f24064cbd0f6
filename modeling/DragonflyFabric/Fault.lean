import DragonflyFabric.Exits.Exit
import DragonflyFabric.Language.Chart
import DragonflyFabric.Packet.Basic
import DragonflyFabric.Router.Algorithm
import DragonflyFabric.Wiring.Link

/-!
Everything that can go wrong, by its cause, and what is said about it.

A fault has a kind, a note about the case at hand where there is one, and a line for its kind. What is
only worth a warning is a `Notice`.
-/

namespace DragonflyFabric

open DragonflyFabric.Language (Value)

/-- Why counts do not describe a network that can be built or used. -/
inductive ParameterFault
  | zeroCount (p : Parameters)
  | tooFewExits (p : Parameters)
  | radix (given : Nat) (p : Parameters)
  | linkMapSize (given expected : Nat)
  | linkOutOfRange (index : Nat) (link limit : Int)
  | linksPerRouter (needed exits : Nat)
  | tableSize (rows slots askedRows askedSlots : Nat)
  | noNetwork
  | tooManyAlgorithms (algorithms networks : Nat)
  | tooFewChannels (needed channels : Nat)
  | bufferSize (entries networks : Nat)
  | noSuchRouter (index count : Nat)
  | foreignTable (rows slots groups links : Nat)
  | notLinked (group own : Nat)
  | noSuchPosition (position routers : Nat)
  | notIntermediate (group : Nat) (source destination : UInt32)
  | fixedSlot (slot links : Nat)

/-- Why a value is not what is expected in its place. -/
inductive ValueFault
  | notNumber | notCount | notInteger | notBoolean | notLiteral | notArray
  | notAlgorithm
  | notNumbering
  | notPolicyObject
  | unknownPolicy (name : String)
  | notObject (expected : String)
  | otherObject (expected found : String)
  | unknownField (field object : String)
  | missingField (field : String)
  | thresholdNotPositive

/-- Why the wires of a network do not match. -/
inductive WiringFault
  | servedTwice (row slot : Nat) (first second : Exit)
  | kindOutOfBound (kind bound port router : Nat)
  | noReturn (router port : Nat) (peer back : Peer)
  | kindsDiffer (port router kind back : Nat)

/-- Why a file could not be read. -/
inductive FileFault
  | missing | directory | notText | nameTooLong
  /-- The name holds the character that ends a name. -/
  | nameEnds

inductive Gauge
  | credits | queues
  deriving DecidableEq

/-- What kept an operation from answering. -/
inductive Fault
  | parameters (why : ParameterFault)
  | value (why : ValueFault) (v : Value)
  | wiring (why : WiringFault)
  | noSuchHost (host count : Nat)
  | noHostAt (group position host : Nat) (number count : Nat)
  | unroutable (dest : Address) (count : Nat)
  | noTableEntry (row slot rows slots : Nat)
  | unserved (row slot : Nat)
  /-- As `unserved`, found while a table is being completed. -/
  | incomplete (row slot : Nat)
  | tableUnbound
  | tableBound
  | noAlgorithm (network : Nat)
  | unknownAlgorithm (name : String)
  | noSuchChannel (channel count : Nat)
  | outOfChannels (algorithm : Algorithm) (channel limit : Nat)
  | noSuchPort (port radix : Nat)
  | notHostPort (port hosts : Nat)
  | unreadable (path : String) (why : FileFault)
  | notParsed (path : String) (why : Language.ParseFault)
  | notDecoded
  | notEncoded (note : Option String)
  | busy (gauge : Gauge)
  | undetermined (note : Option String)
  /-- There is no answer at all: something was asked for where there is nothing. -/
  | abort

namespace ParameterFault

def note : ParameterFault → String
  | zeroCount p =>
    s!"zero-sized dimension in DragonflyParameters \x7b hosts_per_router: {p.hosts}, routers_per_group: {p.routers}, global_ports_per_router: {p.exits}, num_groups: {p.groups}, links_per_group_pair: {p.links} \x7d"
  | tooFewExits p =>
    s!"{p.groups} groups with {p.links} links per pair need {p.linkCount} global ports per group, but groups only have {Word.wrap (p.routers * p.exits)}"
  | radix given p =>
    s!"a router of radix {given} cannot hold {p.hosts} host ports, {p.routers - 1} local ports and {p.exits} global ports"
  | linkMapSize given expected => s!"global_link_map has {given} entries instead of {expected}"
  | linkOutOfRange index link limit => s!"global_link_map[{index}]={link} is not in [-1,{limit})"
  | linksPerRouter needed exits =>
    s!"{needed} global links per router are required but only {exits} global ports exist"
  | tableSize rows slots askedRows askedSlots =>
    s!"a table of {rows}x{slots} entries cannot be used as {askedRows}x{askedSlots}"
  | noNetwork => "at least one virtual network is required"
  | tooManyAlgorithms algorithms networks =>
    s!"{algorithms} routing algorithms given for {networks} virtual networks"
  | tooFewChannels needed channels =>
    s!"the virtual networks need {needed} virtual channels but the router has {channels}"
  | bufferSize entries networks => s!"buffer of {entries} entries for {networks} virtual networks"
  | noSuchRouter index count => s!"router {index} in a network of {count} routers"
  | foreignTable rows slots groups links =>
    s!"a group table of {rows}x{slots} entries for {groups} groups with {links} links per pair"
  | notLinked group own => s!"group {group} has no global link from group {own}"
  | noSuchPosition position routers => s!"router {position} in a group of {routers} routers"
  | notIntermediate group source destination =>
    s!"group {group} cannot be intermediate from {source} to {destination}"
  | fixedSlot slot links => s!"fixed slot {slot} but only {links} links join each pair of groups"

end ParameterFault

namespace ValueFault

def note : ValueFault → String
  | notNumber => "expected a number"
  | notCount => "expected a non-negative integer"
  | notInteger => "expected an integer"
  | notBoolean => "expected a boolean"
  | notLiteral => "expected a literal"
  | notArray => "expected an array"
  | notAlgorithm => "bad value for algorithm"
  | notNumbering => "global_route_mode must be \"absolute\" or \"relative\""
  | notPolicyObject => "link_slot_policy must be an object"
  | unknownPolicy name => "unknown link slot policy " ++ name
  | notObject expected => "Trying to create a " ++ expected ++ " from a non-Object"
  | otherObject expected found =>
    "A " ++ expected ++ " must be created from a `" ++ expected ++ "` object not `" ++ found ++ "`"
  | unknownField field object => "Nothing to do with field " ++ field ++ " in " ++ object
  | missingField field => "There were no " ++ field
  | thresholdNotPositive => "adaptive_threshold must be positive"

end ValueFault

namespace WiringFault

def note : WiringFault → String
  | servedTwice row slot first second =>
    s!"table row {row} slot {slot} is served by both {first.describe} and {second.describe}"
  | kindOutOfBound kind bound port router =>
    s!"link class {kind} out of bound {bound} for port {port} of router {router}"
  | noReturn router port peer back =>
    s!"Non-matching port ({router},{port}) to {peer.describe} non-returns, it goes to {back.describe}."
  | kindsDiffer port router kind back =>
    s!"port {port} at router {router} has non-matching link class {kind} vs {back}"

end WiringFault

def FileFault.text : FileFault → String
  | missing => "No such file or directory (os error 2)"
  | directory => "Is a directory (os error 21)"
  | notText => "stream did not contain valid UTF-8"
  | nameTooLong => "File name too long (os error 36)"
  | nameEnds => "file name contained an unexpected NUL byte"

def Gauge.name : Gauge → String
  | credits => "output credits"
  | queues => "output queue lengths"

/-- The name of a reason to reject a text. -/
def Language.ParseFault.name : ParseFault → String
  | noTokens => "NoTokens"
  | notInGrammar => "NotInGrammar"
  | ambiguous => "Ambiguous"

def Address.describe (a : Address) : String :=
  s!"DragonflyAddress \x7b group: {a.group}, mid_group: {a.target}, mid_group_shadow: {a.alternate}, router: {a.router}, host: {a.host} \x7d"

namespace Fault

/-- The name of the kind of a fault. -/
def kind : Fault → String
  | parameters _ => "InconsistentParameters"
  | value _ _ => "IllFormedConfiguration"
  | wiring _ => "InconsistentWiring"
  | noSuchHost _ _ | noHostAt _ _ _ _ _ | unroutable _ _ => "EndpointOutOfRange"
  | noTableEntry _ _ _ _ => "GroupTableIndexOutOfRange"
  | unserved _ _ | incomplete _ _ => "UnreachableGroup"
  | tableUnbound => "TableNotInitialized"
  | tableBound => "TableAlreadyInitialized"
  | noAlgorithm _ => "MissingRoutingAlgorithm"
  | unknownAlgorithm _ => "UnknownRoutingAlgorithm"
  | noSuchChannel _ _ | outOfChannels _ _ _ => "VirtualChannelOutOfRange"
  | noSuchPort _ _ | notHostPort _ _ => "PortOutOfRange"
  | unreadable _ _ => "CouldNotOpenFile"
  | notParsed _ _ => "CouldNotParseFile"
  | notDecoded => "CouldNotDecodeEvent"
  | notEncoded _ => "CouldNotEncodeEvent"
  | busy _ => "CongestionArrayBusy"
  | undetermined _ => "Undetermined"
  | abort => "NoAnswer"

/-- What is said about the case at hand, for the faults that say more than their kind. -/
def note? : Fault → Option String
  | parameters why => some why.note
  | value why _ => some why.note
  | wiring why => some why.note
  | noHostAt group position host _ _ =>
    some s!"no endpoint at group {group} router {position} host {host}"
  | unroutable dest _ => some ("cannot route toward " ++ dest.describe)
  | incomplete _ _ => some "the global link map leaves a remote group without link"
  | outOfChannels algorithm _ _ =>
    some ("the " ++ algorithm.name ++ " virtual network has no virtual channel for another global hop")
  | notHostPort _ _ => some "only host ports have endpoints"
  | notParsed _ why => some ("error parsing configuration file: " ++ why.name)
  | notEncoded note => note
  | undetermined note => note
  | _ => none

/-- What is said about every fault of a kind. -/
def summary : Fault → String
  | parameters _ => "the dragonfly parameters do not describe a valid network."
  | value _ v => "the following value could not be understood.\n" ++ v.display
  | wiring _ => "some global link does not return to its origin."
  | noSuchHost host count => s!"endpoint {host} is not in [0,{count})."
  | noHostAt _ _ _ number count => s!"endpoint {number} is not in [0,{count})."
  | unroutable _ count => s!"endpoint {count} is not in [0,{count})."
  | noTableEntry row slot rows slots =>
    s!"entry ({row},{slot}) requested from a table of {rows}x{slots} entries."
  | unserved row slot | incomplete row slot =>
    s!"no global link configured for table row {row} and slot {slot}."
  | tableUnbound => "the group table was read before being initialized."
  | tableBound => "the group table can only be initialized once."
  | noAlgorithm network => s!"virtual network {network} has no routing algorithm."
  | unknownAlgorithm name =>
    "`" ++ name ++ "` is not one of minimal, valiant or adaptive-local."
  | noSuchChannel channel count => s!"virtual channel {channel} is not in [0,{count})."
  | outOfChannels _ channel limit => s!"virtual channel {channel} is not in [0,{limit})."
  | noSuchPort port radix => s!"port {port} on a router of radix {radix}."
  | notHostPort port hosts => s!"port {port} on a router of radix {hosts}."
  | unreadable path why =>
    "The file " ++ Text.quoted path ++ " could not be opened.\nio_error: " ++ why.text
  | notParsed path _ => "The file " ++ Text.quoted path ++ " could not be parsed."
  | notDecoded | notEncoded _ => "bincode_error: io error: unexpected end of file"
  | busy gauge => "the " ++ gauge.name ++ " array was being modified while routing."
  | undetermined _ => "A generic error. The concrete error should be more specified."
  | abort => "there is nothing where something was asked for."

/-- The whole message of a fault, line by line. -/
def message (f : Fault) : String :=
  (match f.note? with
    | some note => note ++ "\n"
    | none => "")
  ++ f.kind ++ " error: " ++ f.summary ++ "\n"

end Fault

/-- What is worth a warning and nothing more. -/
inductive Notice
  | lowThreshold (threshold : Float)
  | singleSlot (slot links : Nat)
  | idleExits (count : Nat)
  | disconnected (port router : Nat)

def Notice.text : Notice → String
  | lowThreshold threshold =>
    "adaptive_threshold=" ++ Decimal.Style.plain.write threshold ++ " favours Valiant over minimal paths"
  | singleSlot slot links => s!"only slot {slot} of the {links} parallel global links will be used"
  | idleExits count => s!"{count} global ports per group are left unconnected"
  | disconnected port router => s!"disconnected port {port} at router {router}"

/-- A computation that may fail and that warns on its way; its warnings outlive its failure. -/
abbrev Report := ExceptT Fault (StateM (Array Notice))

namespace Report

def warn (n : Notice) : Report Unit := modify (·.push n)

/-- The result of a computation and its warnings, in order. -/
def outcome {α : Type} (r : Report α) : Except Fault α × Array Notice := r.run #[]

/-- The result alone. -/
def result {α : Type} (r : Report α) : Except Fault α := r.outcome.1

end Report

end DragonflyFabric
