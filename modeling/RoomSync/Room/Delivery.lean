import RoomSync.Room

namespace RoomSync

/-- A room together with the host that has its sockets. -/
structure LiveRoom (σ : Type) where
  room : Room
  host : σ

namespace LiveRoom

variable {σ : Type} [Host σ]

def note (l : LiveRoom σ) (event : LifecycleEvent) : LiveRoom σ :=
  { l with room := l.room.note event }

def close (l : LiveRoom σ) (socket : SocketId) : LiveRoom σ :=
  { l with host := Host.close l.host socket }

def tell (l : LiveRoom σ) (socket : SocketId) (msg : ServerMessage) : LiveRoom σ :=
  { l with host := (Host.send l.host socket msg).1 }

/-- A connected session loses its connection and waits to be resumed. -/
def cancel (l : LiveRoom σ) (key : String) (cause : CancelCause) (now : Nat) : LiveRoom σ :=
  match l.room.session? key with
  | none => l
  | some s =>
    let (cancelled, host) := s.cancel l.host now
    let room := { l.room with sessions := l.room.sessions.insert key cancelled }
    ⟨if s.isConnected then room.note (.cancelled key cause) else room, host⟩

/-- Hand a message to the socket of a session, which is cancelled if the socket cannot take it. -/
def sendFrame (l : LiveRoom σ) (key : String) (socket : SocketId) (msg : ServerMessage)
    (now : Nat) : LiveRoom σ :=
  match Host.send l.host socket msg with
  | (host, none) => { l with host }
  | (host, some .full) => cancel { l with host } key .slowConsumer now
  | (host, some .closed) => cancel { l with host } key .socketClosed now

def setOutbox (l : LiveRoom σ) (key : String) (outbox : Outbox) : LiveRoom σ :=
  { l with room := l.room.modifySession key (·.mapConnected fun c => { c with outbox }) }

def sendData (l : LiveRoom σ) (key : String) (msg : DataMessage) (now : Nat) : LiveRoom σ :=
  match l.room.connected? key with
  | none => l
  | some c =>
    let (outbox, posting) := c.outbox.enqueue msg now l.room.config
    let l := l.setOutbox key outbox
    match posting with
    | .send batch => l.sendFrame key c.socket (.data batch) now
    | .held => l
    | .overflow => l.cancel key .slowConsumer now

def sendPatch (changes : Changes) (now : Nat) (l : LiveRoom σ) (key : String) : LiveRoom σ :=
  match l.room.connected? key with
  | none => l
  | some c => l.sendData key (.patch (c.outbox.patchTo l.room.clock changes)) now

def broadcast (l : LiveRoom σ) (changes : Changes) (except : Option String) (now : Nat) :
    LiveRoom σ :=
  let targets := l.room.connectedKeys.filter fun key => some key ≠ except
  (Host.visit l.host targets).foldl (sendPatch changes now) l

def dropPresence (l : LiveRoom σ) (id : RecordId) (now : Nat) : LiveRoom σ :=
  if l.room.presence.contains id then
    let room := { l.room with
      presence := l.room.presence.erase id
      store := l.room.store.advance }
    broadcast { l with room } (Table.empty.insert id .remove) none now
  else l

def dropPresence? (l : LiveRoom σ) (id : Option RecordId) (now : Nat) : LiveRoom σ :=
  match id with
  | some id => l.dropPresence id now
  | none => l

def forget (l : LiveRoom σ) (key : String) : LiveRoom σ :=
  { l with room := { l.room with sessions := l.room.sessions.erase key } }

/-- A session leaves the room for good: its socket is closed and its presence dropped. -/
def remove (l : LiveRoom σ) (key : String) (cause : RemovalCause) (now : Nat) : LiveRoom σ :=
  match l.room.session? key with
  | none => l
  | some s =>
    let l := l.forget key
    let l := match s.socket? with
      | some socket => l.close socket
      | none => l
    (l.dropPresence? s.presenceId now).note (.removed key cause)

def terminate (l : LiveRoom σ) (key : String) (error : ProtocolError) (now : Nat) : LiveRoom σ :=
  match (l.room.session? key).bind Session.socket? with
  | none => l
  | some socket => (l.tell socket (.error error.message)).remove key .protocolError now

end LiveRoom

end RoomSync
