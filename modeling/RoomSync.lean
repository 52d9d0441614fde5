import RoomSync.Deployment
import RoomSync.Main
import RoomSync.Proofs.Draft.PendingWrites
import RoomSync.Proofs.Gathering.Convergence
import RoomSync.Proofs.Outbox.Conservation
import RoomSync.Proofs.Registry.Continuity
import RoomSync.Proofs.Room.InStep
import RoomSync.Proofs.Room.Namespace
import RoomSync.Proofs.Room.Observer
import RoomSync.Proofs.Server.Replacement
import RoomSync.Proofs.Store.Batch
import RoomSync.Proofs.Wire.Message
import RoomSync.Rehearsal
import RoomSync.Proofs.Room.Journal
import RoomSync.Proofs.Room.Ties
import RoomSync.Proofs.Room.Conduct
import RoomSync.Proofs.Room.Veil
import RoomSync.Proofs.Room.OwnPresence
import RoomSync.Proofs.Draft.Alike
import RoomSync.Proofs.Client.Supersession
import RoomSync.Proofs.Room.Clock
import RoomSync.Proofs.Room.Reception
import RoomSync.Proofs.Room.Sessions
import RoomSync.Proofs.Room.Admission
import RoomSync.Proofs.Room.Confinement
import RoomSync.Proofs.Room.Lineage
import RoomSync.Proofs.Replica.Chain
import RoomSync.Proofs.Room.Sheltered
import RoomSync.Proofs.CommandLine
import RoomSync.Proofs.Room.Lifecycle
import RoomSync.Proofs.Client.Handover
import RoomSync.Proofs.Outbox.Punctuality
import RoomSync.Proofs.Store.Integrity
import RoomSync.Proofs.Room.Refusals
import RoomSync.Proofs.Room.Tick
import RoomSync.Proofs.Wire.Framing
import RoomSync.Proofs.Store.Restored
import RoomSync.Proofs.Draft.Coalescing
import RoomSync.Proofs.Room.Ahead
import RoomSync.Proofs.Room.Lanes
import RoomSync.Proofs.Draft.Departures
import RoomSync.Proofs.Room.Departures
import RoomSync.Proofs.Room.VisitingOrder
import RoomSync.Proofs.Changes.Difference
import RoomSync.Proofs.Route.Grammar
import RoomSync.Proofs.Draft.Stamps
import RoomSync.Proofs.Room.Stamps
import RoomSync.Proofs.Room.InPlace
import RoomSync.Proofs.Gathering.Accord
import RoomSync.Proofs.Gathering.Attuned
import RoomSync.Proofs.Gathering.Stamps
