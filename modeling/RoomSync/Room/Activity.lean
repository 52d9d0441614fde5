import RoomSync.Room.Handshake
import RoomSync.Room.Push
import RoomSync.Wire.Message

namespace RoomSync.LiveRoom

variable {σ : Type} [Host σ]

def expire (l : LiveRoom σ) (key : String) (now : Nat) : LiveRoom σ :=
  match l.room.session? key with
  | some s =>
    if s.phase = .awaitingRemoval && !s.resumable now l.room.config then
      l.remove key .removalGrace now
    else l
  | none => l

/-- A socket was opened for a session. It takes the place of the session that the key still has, and
keeps the host's data of that one unless it brings its own. -/
def openSocket (l : LiveRoom σ) (key : String) (socket : SocketId) (info : Content) (now : Nat) :
    LiveRoom σ :=
  let l := l.expire key now
  let start (l : LiveRoom σ) (resume : Option Resume) (info : Content) : LiveRoom σ :=
    { l with room := { l.room with
        sessions := l.room.sessions.insert key (.start socket now resume info) } }
  match l.room.session? key with
  | none => start l none info
  | some old =>
    let l := match old.socket? with
      | some previous => l.close previous
      | none => l
    start l old.successor (if info = .null then old.info else info)

def pong (l : LiveRoom σ) (key : String) (now : Nat) : LiveRoom σ :=
  match (l.room.session? key).bind Session.socket? with
  | some socket => l.sendFrame key socket .pong now
  | none => l

def dispatch (l : LiveRoom σ) (key : String) (msg : ClientMessage) (now : Nat) :
    LiveRoom σ × Except RoomError Unit :=
  match msg with
  | .connect request =>
    let (l, result) := l.connect key request now
    (l, result.map fun _ => ())
  | .push push =>
    let (l, result) := l.receivePush key push now
    (l, result.map fun _ => ())
  | .ping => (l.pong key now, .ok ())

/-- A message came from a session that is not lost. A breach of the protocol ends this session and no
other. -/
def hear (l : LiveRoom σ) (key : String) (msg : ClientMessage) (now : Nat) :
    LiveRoom σ × Except RoomError Unit :=
  let l := { l with room := l.room.modifySession key (·.touch now) }
  match l.dispatch key msg now with
  | (l, .error (.protocol error)) => (l.terminate key error now, .error (.protocol error))
  | answer => answer

/-- A frame came in on the socket of a session. Frames for a lost session are ignored. -/
def receive (l : LiveRoom σ) (key : String) (frame : Wire.Bytes) (now : Nat) :
    LiveRoom σ × Except RoomError Unit :=
  match l.room.session? key with
  | none => (l, .error (.protocol (.unknownSession key)))
  | some s =>
    if s.phase = .awaitingRemoval then (l, .ok ())
    else
      match ClientMessage.decode frame with
      | .error cause =>
        (l.terminate key (.decode cause) now, .error (.protocol (.decode cause)))
      | .ok msg => l.hear key msg now

/-- A socket was closed by the other side. This is ignored if the socket is not, or no longer, the
session's own. -/
def socketClosed (l : LiveRoom σ) (key : String) (socket : SocketId) (now : Nat) : LiveRoom σ :=
  match l.room.session? key with
  | none => l
  | some s =>
    if s.socket? ≠ some socket then l
    else if s.isConnected then l.cancel key .socketClosed now
    else l.remove key .closedBeforeConnect now

def expireSession (now : Nat) (l : LiveRoom σ) (expired : String × Expiry) : LiveRoom σ :=
  match expired.2 with
  | .startTimeout => l.remove expired.1 .startTimeout now
  | .idle => l.cancel expired.1 .idleTimeout now
  | .removalGrace => l.remove expired.1 .removalGrace now

def flushSession (now : Nat) (l : LiveRoom σ) (key : String) : LiveRoom σ :=
  match l.room.connected? key with
  | none => l
  | some c =>
    let (outbox, due) := c.outbox.flushDue now l.room.config.debounce
    let l := l.setOutbox key outbox
    match due with
    | none => l
    | some batch => l.sendFrame key c.socket (.data batch) now

def expired (l : LiveRoom σ) (now : Nat) : List (String × Expiry) :=
  let due := l.room.sessions.filter fun _ s => (s.expiry? now l.room.config).isSome
  (Host.visit l.host due.keys).filterMap fun key =>
    ((l.room.session? key).bind (·.expiry? now l.room.config)).map fun expiry => (key, expiry)

def takeEvents (l : LiveRoom σ) : LiveRoom σ × List LifecycleEvent :=
  ({ l with room := { l.room with events := [] } }, l.room.events)

def tick (l : LiveRoom σ) (now : Nat) : LiveRoom σ × List LifecycleEvent :=
  let l := (l.expired now).foldl (expireSession now) l
  let l := (Host.visit l.host l.room.connectedKeys).foldl (flushSession now) l
  l.takeEvents

def kick (l : LiveRoom σ) (key : String) (now : Nat) : LiveRoom σ × Bool :=
  let present := l.room.sessions.contains key
  let forbidden := if key ∈ l.room.forbidden then l.room.forbidden else key :: l.room.forbidden
  (remove { l with room := { l.room with forbidden } } key .kicked now, present)

end RoomSync.LiveRoom
