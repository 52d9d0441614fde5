import RoomSync.Host
import RoomSync.Outbox
import RoomSync.ProtocolError

namespace RoomSync

/-- What a session takes over from the one that it replaces. -/
structure Resume where
  presenceId : Option RecordId
deriving DecidableEq, Repr, Inhabited

structure Waiting where
  socket : SocketId
  startedAt : Nat
  resume : Option Resume
deriving DecidableEq, Repr, Inhabited

structure Connected where
  socket : SocketId
  schema : SchemaSummary
  lastInteraction : Nat
  outbox : Outbox
deriving DecidableEq, Inhabited

def Waiting.accept (w : Waiting) (schema : SchemaSummary) (clock now : Nat) : Connected :=
  ⟨w.socket, schema, now, .start clock now⟩

inductive SessionState where
  | awaitingConnect (waiting : Waiting)
  | connected (connected : Connected)
  | awaitingRemoval (since : Nat)
deriving DecidableEq, Inhabited

inductive Expiry where
  | startTimeout
  | idle
  | removalGrace
deriving DecidableEq, Repr, Inhabited

/-- The session of one client in a room. It waits for a handshake, is connected, and, once the
connection is lost, waits to be resumed or removed; it never goes back. -/
structure Session where
  /-- The id of the session's presence record, known once it is connected or taken over. -/
  presenceId : Option RecordId
  info : Content
  state : SessionState
deriving DecidableEq, Inhabited

namespace Session

def start (socket : SocketId) (now : Nat) (resume : Option Resume) (info : Content) : Session :=
  ⟨resume.bind Resume.presenceId, info, .awaitingConnect ⟨socket, now, resume⟩⟩

def phase (s : Session) : Phase :=
  match s.state with
  | .awaitingConnect _ => .awaitingConnect
  | .connected _ => .connected
  | .awaitingRemoval _ => .awaitingRemoval

def isConnected (s : Session) : Bool := s.phase = .connected

def connected? (s : Session) : Option Connected :=
  match s.state with
  | .connected c => some c
  | _ => none

def socket? (s : Session) : Option SocketId :=
  match s.state with
  | .awaitingConnect w => some w.socket
  | .connected c => some c.socket
  | .awaitingRemoval _ => none

/-- What a session that replaces this one takes over. A session that never did its handshake is
nobody's predecessor and passes on what it took over itself. -/
def successor (s : Session) : Option Resume :=
  match s.state with
  | .awaitingConnect w => w.resume
  | .connected _ | .awaitingRemoval _ => some ⟨s.presenceId⟩

def resumable (s : Session) (now : Nat) (config : Config) : Bool :=
  match s.state with
  | .awaitingRemoval since => now - since < config.removalGrace
  | _ => false

def expiry? (s : Session) (now : Nat) (config : Config) : Option Expiry :=
  let (since, limit, expiry) := match s.state with
    | .awaitingConnect w => (w.startedAt, config.startTimeout, .startTimeout)
    | .connected c => (c.lastInteraction, config.idleTimeout, .idle)
    | .awaitingRemoval since => (since, config.removalGrace, .removalGrace)
  if limit ≤ now - since then some expiry else none

def mapConnected (s : Session) (f : Connected → Connected) : Session :=
  match s.state with
  | .connected c => { s with state := .connected (f c) }
  | _ => s

def touch (s : Session) (now : Nat) : Session :=
  s.mapConnected fun c => { c with lastInteraction := now }

def cancel {σ : Type} [Host σ] (s : Session) (host : σ) (now : Nat) : Session × σ :=
  match s.state with
  | .connected c => ({ s with state := .awaitingRemoval now }, Host.close host c.socket)
  | _ => (s, host)

end Session

end RoomSync
