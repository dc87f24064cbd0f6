import DragonflyFabric.Footprint
import DragonflyFabric.Packet.Wire
import DragonflyFabric.Settings.File
import DragonflyFabric.Wiring.Distance
import DragonflyFabric.Proofs.Outcome
import DragonflyFabric.Proofs.Ports
import DragonflyFabric.Proofs.Rows
import DragonflyFabric.Proofs.Correspondence
import DragonflyFabric.Proofs.Accepted
import DragonflyFabric.Proofs.Defaults
import DragonflyFabric.Proofs.Widths
import DragonflyFabric.Proofs.Wire
import DragonflyFabric.Proofs.Cells
import DragonflyFabric.Proofs.Exits.Served
import DragonflyFabric.Proofs.Exits.Filled
import DragonflyFabric.Proofs.Exits.Views
import DragonflyFabric.Proofs.Wiring.Returns
import DragonflyFabric.Proofs.Wiring.Complete
import DragonflyFabric.Proofs.Wiring.Search
import DragonflyFabric.Proofs.Wiring.Trunks
import DragonflyFabric.Proofs.Wiring.Unpaired
import DragonflyFabric.Proofs.Classes
import DragonflyFabric.Proofs.Fabric
import DragonflyFabric.Proofs.Hosts
import DragonflyFabric.Proofs.Installation
import DragonflyFabric.Proofs.Congestion
import DragonflyFabric.Proofs.Router.Service
import DragonflyFabric.Proofs.Router.Intermediate
import DragonflyFabric.Proofs.Router.Flows
import DragonflyFabric.Proofs.Router.Gates
import DragonflyFabric.Proofs.Router.WayOut
import DragonflyFabric.Proofs.Router.Entry
import DragonflyFabric.Proofs.Router.Confined
import DragonflyFabric.Proofs.Router.Redirection
import DragonflyFabric.Proofs.Journey.Basic
import DragonflyFabric.Proofs.Journey.Course
import DragonflyFabric.Proofs.Journey.Itinerary
import DragonflyFabric.Proofs.Journey.Delivery
import DragonflyFabric.Proofs.Journey.Circles
import DragonflyFabric.Proofs.Journey.Walks
import DragonflyFabric.Proofs.Journey.SameWay
import DragonflyFabric.Proofs.Journey.Detours
import DragonflyFabric.Proofs.Journey.Undiverted
import DragonflyFabric.Proofs.Broadcast.Spread
import DragonflyFabric.Proofs.Router.Rotation
import DragonflyFabric.Proofs.Router.SharedTurns
import DragonflyFabric.Proofs.Wiring.Shortest
import DragonflyFabric.Proofs.Settings.Validity
import DragonflyFabric.Proofs.Language.Data
import DragonflyFabric.Proofs.Router.Admission
import DragonflyFabric.Proofs.Router.Refusal
import DragonflyFabric.Proofs.Language.Display
import DragonflyFabric.Proofs.Settings.Loading
import DragonflyFabric.Proofs.Router.PortStates
import DragonflyFabric.Proofs.Wiring.Weighted
import DragonflyFabric.Proofs.Router.OtherSlot
import DragonflyFabric.Proofs.Journey.Weighing
import DragonflyFabric.Proofs.Wiring.Crowded
import DragonflyFabric.Proofs.Wiring.Matched
import DragonflyFabric.Proofs.Exits.Once
import DragonflyFabric.Proofs.Settings.Order
import DragonflyFabric.Proofs.Settings.Names
import DragonflyFabric.Proofs.Language.Comments
import DragonflyFabric.Proofs.Language.Expressions
