import RoomSync.Proofs.Client
import RoomSync.Proofs.Draft.Based
import RoomSync.Proofs.Room.Run
import RoomSync.Proofs.Room.Seat

namespace RoomSync

open Table

/-- A client that takes part. -/
structure Member where
  client : Client
  /-- The handshake of an attempt to connect that goes on. -/
  dialing : Option ConnectRequest
  /-- The socket of the newest connection. -/
  socket : SocketId
  /-- How many messages the client has read from it. -/
  read : Nat
deriving Inhabited

structure Gathering (σ : Type) where
  live : LiveRoom (Journal σ)
  members : Table Member
  opened : Nat

inductive Happening (σ : Type) where
  | joins (key url documentId : String) (schema : Schema)
  | pushes (key : String) (mutations : List Mutation)
  | appears (key : String) (content : Content)
  | pings (key : String)
  | dials (key : String)
  /-- The room opens a socket for a client that dials, and the client has the connection. -/
  | getsThrough (key : String) (info : Content)
  | getsNowhere (key : String)
  /-- The room opens a socket that no client gets hold of. -/
  | opensInVain (key : String) (info : Content)
  | hangsUp (key : String)
  | reads (key : String)
  /-- A client finds one of its connections gone. -/
  | losesTouch (key : String) (connection : Nat)
  | isHeard (key : String)
  | closes (key : String) (socket : SocketId)
  | ticks
  | kicks (key : String)
  | takesEvents
  /-- The host goes on by itself, so that sockets that were full may have room again. -/
  | goesOn (host : σ)
deriving Inhabited

namespace Member

variable {σ : Type} (live : LiveRoom (Journal σ)) (m : Member)

/-- The newest connection, as long as the room has not closed it. -/
def link? : Option (Nat × Connection) :=
  if m.socket ∈ live.host.closed then none
  else m.client.current.bind fun i => (m.client.connection? i).map fun connection => (i, connection)

def incoming? : Option (Nat × Connection × ServerMessage) := do
  let (i, connection) ← m.link? live
  if connection.reading then
    return (i, connection, ← (live.host.taken m.socket)[m.read]?)
  else none

def outgoing? : Option (Nat × ClientMessage) := do
  let (i, connection) ← m.link? live
  if connection.writing then return (i, ← connection.outgoing.head?) else none

def reads : Member :=
  match m.incoming? live with
  | some (i, connection, msg) =>
    { m with client := m.client.fold i connection msg, read := m.read + 1 }
  | none => m

def dials : Member :=
  { m with client := m.client.beginConnect.1, dialing := some m.client.beginConnect.2 }

def getsThrough (request : ConnectRequest) (socket : SocketId) : Member :=
  ⟨m.client.connectMade request, none, socket, 0⟩

def getsNowhere : Member :=
  if m.dialing.isSome then { m with client := m.client.connectFailed, dialing := none } else m

/-- A client that hangs up gives up an attempt to connect, too. -/
def hangsUp : Member := { m with client := m.client.disconnect, dialing := none }

end Member

namespace Gathering

variable {σ : Type} [Host σ]

def start (room : Room) (host : σ) : Gathering σ := ⟨⟨room, .start host⟩, Table.empty, 0⟩

def modify (g : Gathering σ) (key : String) (f : Member → Member) : Gathering σ :=
  { g with members := g.members.modify key f }

def setClient (g : Gathering σ) (key : String) (f : Client → Client) : Gathering σ :=
  g.modify key fun m => { m with client := f m.client }

/-- What becomes of everyone when something happens at an instant. What cannot happen changes
nothing. -/
def step (now : Nat) (g : Gathering σ) : Happening σ → Gathering σ
  | .joins key url documentId schema =>
    if g.members.contains key then g
    else { g with members := g.members.insert key ⟨.new url documentId key schema, none, 0, 0⟩ }
  | .pushes key mutations => g.setClient key fun c => (c.push mutations).1
  | .appears key content => g.setClient key fun c => (c.setPresence content).1
  | .pings key => g.setClient key fun c => c.ping.1
  | .dials key => g.modify key Member.dials
  | .getsThrough key info =>
    match (g.members.get? key).bind Member.dialing with
    | none => g
    | some request =>
      { live := g.live.openSocket key g.opened info now
        members := g.members.modify key fun m => m.getsThrough request g.opened
        opened := g.opened + 1 }
  | .getsNowhere key => g.modify key Member.getsNowhere
  | .opensInVain key info =>
    { g with live := g.live.openSocket key g.opened info now, opened := g.opened + 1 }
  | .hangsUp key => g.modify key Member.hangsUp
  | .reads key => g.modify key fun m => m.reads g.live
  | .losesTouch key connection => g.setClient key fun c => c.readEnd connection
  | .isHeard key =>
    match (g.members.get? key).bind fun m => m.outgoing? g.live with
    | none => g
    | some (i, msg) =>
      let live := g.live.heed key msg now
      { g.setClient key fun c => (c.write i).1 with live }
  | .closes key socket => { g with live := g.live.socketClosed key socket now }
  | .ticks => { g with live := (g.live.tick now).1 }
  | .kicks key => { g with live := (g.live.kick key now).1 }
  | .takesEvents => { g with live := g.live.takeEvents.1 }
  | .goesOn host => { g with live := { g.live with host := { g.live.host with host } } }

def run (g : Gathering σ) (happenings : List (Nat × Happening σ)) : Gathering σ :=
  happenings.foldl (fun g h => g.step h.1 h.2) g

def folded? (g : Gathering σ) : Happening σ → Option (Draft × List DataMessage)
  | .reads key => do
    let m ← g.members.get? key
    match ← m.incoming? g.live with
    | (_, _, .data batch) => some (m.client.draft, batch)
    | _ => none
  | _ => none

/-- Whenever a client reads a result that rejects an id, none of its other unsettled pushes touches
that id. -/
def Untangled : Gathering σ → List (Nat × Happening σ) → Prop
  | _, [] => True
  | g, (now, happening) :: rest =>
    (∀ folded ∈ g.folded? happening, folded.1.Untangled folded.2) ∧
      (g.step now happening).Untangled rest

instance decidableUntangled :
    (g : Gathering σ) → (happenings : List (Nat × Happening σ)) → Decidable (g.Untangled happenings)
  | _, [] => isTrue trivial
  | g, (now, happening) :: rest =>
    have := decidableUntangled (g.step now happening) rest
    inferInstanceAs (Decidable (_ ∧ _))

/-- Nothing is on its way between a member and its session, which is connected, and nothing is held
back or unsettled. -/
structure Quiescent (g : Gathering σ) (key : String) (m : Member) : Prop where
  connected : ∃ c ∈ g.live.room.connected? key, c.socket = m.socket ∧ c.outbox.held = []
  sent : ∃ connection ∈ m.client.line?, connection.outgoing = []
  read : m.read = (g.live.host.taken m.socket).length
  settled : m.client.draft.pending = []

omit [Host σ] in
theorem quiescent_iff {g : Gathering σ} {key : String} {m : Member} :
    g.Quiescent key m ↔
      (∃ c ∈ g.live.room.connected? key, c.socket = m.socket ∧ c.outbox.held = []) ∧
        (∃ connection ∈ m.client.line?, connection.outgoing = []) ∧
        m.read = (g.live.host.taken m.socket).length ∧ m.client.draft.pending = [] :=
  ⟨fun h => ⟨h.connected, h.sent, h.read, h.settled⟩, fun h => ⟨h.1, h.2.1, h.2.2.1, h.2.2.2⟩⟩

instance (g : Gathering σ) (key : String) (m : Member) : Decidable (g.Quiescent key m) :=
  decidable_of_iff _ quiescent_iff.symm

end Gathering

end RoomSync
