import RoomSync.Link
import RoomSync.Network
import RoomSync.Registry
import RoomSync.Route

namespace RoomSync

structure ServerConfig where
  bindAddress : String := "127.0.0.1:9090"
  tickInterval : Nat := 16
  /-- How many frames wait for a connection before it counts as too slow. -/
  outboundBuffer : Nat := 256
  room : Config := {}
deriving DecidableEq, Inhabited

inductive ServerError where
  | addressInUse
  | acceptFailed
deriving DecidableEq, Repr, Inhabited

def ServerError.message : ServerError → String
  | .addressInUse => "io error: address in use"
  | .acceptFailed => "io error: accept failed"

structure ServerStats where
  totalConnections : Nat := 0
  activeConnections : Nat := 0
  totalMessages : Nat := 0
  totalBytes : Nat := 0
  rejectedUpgrades : Nat := 0
deriving DecidableEq, Repr, Inhabited

inductive TaskState where
  | running
  /-- One side has hung up, and the room was not told yet. -/
  | ending
  | ended
deriving DecidableEq, Repr, Inhabited

structure ServerConnection where
  route : Route
  socket : SocketId
  room : RoomId
  task : TaskState
deriving DecidableEq, Repr, Inhabited

/-- A server: the rooms of all documents and the connections to them. Each connection has one task,
which passes frames on in both directions until either side hangs up. -/
structure Server where
  config : ServerConfig
  registry : Registry Network
  stats : ServerStats
  connections : List ServerConnection

namespace Server

def start (config : ServerConfig) (snapshots : Table Snapshot) : Server :=
  ⟨config, .start config.room snapshots {}, {}, []⟩

def connection? (s : Server) (i : Nat) : Option ServerConnection := s.connections[i]?

def running? (s : Server) (i : Nat) : Option ServerConnection :=
  (s.connection? i).filter fun c => c.task = .running

def setTask (s : Server) (i : Nat) (task : TaskState) : Server :=
  { s with connections := s.connections.modify i fun c => { c with task } }

def modifyNetwork (s : Server) (f : Network → Network) : Server :=
  { s with registry := { s.registry with host := f s.registry.host } }

def infoOf (address : String) : Content := .ofFields [("remote_addr", .text address)]

def accept (s : Server) (target : Target) (address : String) (now : Nat) :
    Server × Except RouteError Nat :=
  match Route.ofTarget target with
  | .error reason =>
    ({ s with stats := { s.stats with rejectedUpgrades := s.stats.rejectedUpgrades + 1 } },
      .error reason)
  | .ok route =>
    let (network, socket) := s.registry.host.openSocket (.channel s.config.outboundBuffer)
    let registry := { s.registry with host := network }
    let (registry, room) :=
      registry.openSession route.documentId route.sessionKey socket (infoOf address) now
    ({ s with
        registry
        stats := { s.stats with
          totalConnections := s.stats.totalConnections + 1
          activeConnections := s.stats.activeConnections + 1 }
        connections := s.connections ++ [⟨route, socket, room, .running⟩] },
      .ok s.connections.length)

def stop (s : Server) (i : Nat) (c : ServerConnection) : Server :=
  (s.modifyNetwork fun n => n.modify c.socket Socket.abandon).setTask i .ending

def hearMessage (s : Server) (c : ServerConnection) (bytes : Wire.Bytes) (now : Nat) : Server :=
  { s with
    stats := { s.stats with
      totalMessages := s.stats.totalMessages + 1
      totalBytes := s.stats.totalBytes + bytes.length }
    registry := s.registry.onRoom c.room fun l => (l.receive c.route.sessionKey bytes now).1 }

def hear (s : Server) (i : Nat) (frame : Frame) (now : Nat) : Server × Option Frame :=
  match s.running? i with
  | none => (s, none)
  | some c =>
    match frame with
    | .binary bytes => (s.hearMessage c bytes now, none)
    | .ping payload => (s, some (.pong payload))
    | .close => (s.stop i c, none)
    | .text _ | .pong _ => (s, none)

def hearEnd (s : Server) (i : Nat) : Server :=
  match s.running? i with
  | none => s
  | some c => s.stop i c

/-- The task of a connection takes the next frame that its room has sent, and stops once the room
has closed the socket. -/
def forward (s : Server) (i : Nat) : Server × Option Frame :=
  match s.running? i with
  | none => (s, none)
  | some c =>
    match (s.registry.host.socket? c.socket).map Socket.receive with
    | none => (s, none)
    | some (socket, .frame bytes) =>
      (s.modifyNetwork fun n => n.modify c.socket fun _ => socket, some (.binary bytes))
    | some (_, .empty) => (s, none)
    | some (_, .disconnected) => (s.stop i c, some .close)

/-- The last step of a task that has stopped: the room is told that the socket is closed, and is let
go if nobody is left in it. -/
def leave (s : Server) (i : Nat) (now : Nat) : Server :=
  match (s.connection? i).filter fun c => c.task = .ending with
  | none => s
  | some c =>
    let registry := s.registry.onRoom c.room fun l =>
      (l.socketClosed c.route.sessionKey c.socket now).close c.socket
    { s.setTask i .ended with
      registry := (registry.removeIfEmpty c.route.documentId).1
      stats := { s.stats with activeConnections := s.stats.activeConnections - 1 } }

def tick (s : Server) (now : Nat) : Server := { s with registry := (s.registry.tickAll now).1 }

def kick (s : Server) (document key : String) (now : Nat) : Server × Bool :=
  let (registry, kicked) := s.registry.kick document key now
  ({ s with registry }, kicked)

end Server

end RoomSync
