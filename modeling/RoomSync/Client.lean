import RoomSync.Draft
import RoomSync.Link
import RoomSync.ProtocolError
import RoomSync.Route
import RoomSync.Wire.Message

namespace RoomSync

inductive ConnectionState where
  | disconnected
  | connecting
  | connected
deriving DecidableEq, Repr, Inhabited

structure Connection where
  generation : Nat
  outgoing : List ClientMessage
  reading : Bool := true
  writing : Bool := true
deriving DecidableEq, Inhabited

/-- A client: its working copy, and the connections that it has made. Only the newest connection is
written to, but an older one is read until it ends. Each function here is one step of a task or one
call of the application, so that every interleaving can be spelled out. -/
structure Client where
  url : String
  documentId : String
  presenceId : RecordId
  schema : SchemaSummary
  state : ConnectionState
  /-- Goes up with each attempt to connect and each disconnect, so that the end of an older
  connection is not taken for the end of a newer one. -/
  generation : Nat
  draft : Draft
  /-- The connection that messages are handed to. -/
  current : Option Nat
  connections : List Connection
  events : List SyncEvent
deriving DecidableEq, Inhabited

namespace Client

def new (url documentId sessionKey : String) (schema : Schema) : Client :=
  { url, documentId
    presenceId := "presence:" ++ sessionKey
    schema := schema.summary
    state := .disconnected
    generation := 0
    draft := .start sessionKey
    current := none
    connections := []
    events := [] }

def record? (c : Client) (id : RecordId) : Option Record := c.draft.replica.get? id

def longestUrl : Nat := 65534

def target? (c : Client) : Option Target :=
  let request := Route.request c.documentId c.draft.sessionKey
  if (c.url ++ request).utf8ByteSize ≤ longestUrl then Target.ofText? request else none

def connection? (c : Client) (i : Nat) : Option Connection := c.connections[i]?

def modifyConnection (c : Client) (i : Nat) (f : Connection → Connection) : Client :=
  { c with connections := c.connections.modify i f }

def note (c : Client) (events : List SyncEvent) : Client :=
  { c with events := c.events ++ events }

def takeEvents (c : Client) : Client × List SyncEvent := ({ c with events := [] }, c.events)

def handTo (c : Client) (i : Nat) (messages : List ClientMessage) : Client :=
  c.modifyConnection i fun connection =>
    if connection.writing then { connection with outgoing := connection.outgoing ++ messages }
    else connection

/-- Begin to connect. The handshake is made up now, and sent once there is a connection. -/
def beginConnect (c : Client) : Client × ConnectRequest :=
  ({ c with state := .connecting, generation := c.generation + 1 },
    { sessionKey := c.draft.sessionKey
      presenceId := c.presenceId
      schema := c.schema
      lastKnownClock := c.draft.lastKnownClock })

def connectFailed (c : Client) : Client := { c with state := .disconnected }

def connectMade (c : Client) (request : ConnectRequest) : Client :=
  { c with
    current := some c.connections.length
    connections := c.connections ++ [⟨c.generation, [.connect request], true, true⟩] }

def disconnect (c : Client) : Client :=
  { c with generation := c.generation + 1, current := none, state := .disconnected }

/-- Hand a message to the current connection. Without a connection it is dropped silently. -/
def send (c : Client) (msg : ClientMessage) : Client × Except ProtocolError Unit :=
  match c.current with
  | none => (c, .ok ())
  | some i =>
    match c.connection? i with
    | some connection =>
      if connection.writing then (c.handTo i [msg], .ok ()) else (c, .error .connectionClosed)
    | none => (c, .error .connectionClosed)

/-- Make a push in the replica and send it. If the client is not connected, the push is sent after
the next handshake. -/
def push (c : Client) (mutations : List Mutation) : Client × Except ProtocolError Nat :=
  let (draft, pending) := c.draft.push mutations
  let c := { c with draft }
  if c.state = .connected then
    let (c, result) := c.send (draft.pushMessage pending)
    (c, result.map fun _ => pending.pushId)
  else (c, .ok pending.pushId)

def setPresence (c : Client) (content : Content) : Client × Except ProtocolError Unit :=
  if c.state = .connected then
    let (draft, pushId) := c.draft.allot
    send { c with draft } (.push ⟨draft.sessionKey, pushId, [], some content⟩)
  else (c, .ok ())

def ping (c : Client) : Client × Except ProtocolError Unit := c.send .ping

/-- A message came in on a connection. What is to be sent back is handed to the connection if it is
still the current one. -/
def fold (c : Client) (i : Nat) (connection : Connection) (msg : ServerMessage) : Client :=
  let folded := c.draft.fold msg
  let c := { c with draft := folded.draft }
  let c := if c.current = some i then c.handTo i folded.replies else c
  let accepted := match msg with
    | .connected _ => true
    | _ => false
  let c := if accepted && connection.generation = c.generation then
    { c with state := .connected } else c
  c.note folded.events

def readerEnds (c : Client) (i : Nat) (connection : Connection) : Client :=
  let c := c.modifyConnection i fun connection => { connection with reading := false }
  let c := if connection.generation = c.generation then { c with state := .disconnected } else c
  c.note [.disconnected]

def read (c : Client) (i : Nat) (frame : Frame) : Client :=
  match c.connection? i with
  | none => c
  | some connection =>
    if connection.reading then
      match frame with
      | .binary bytes =>
        match ServerMessage.decode bytes with
        | .ok msg => c.fold i connection msg
        | .error _ => c
      | .close => c.readerEnds i connection
      | .text _ | .ping _ | .pong _ => c
    else c

def readEnd (c : Client) (i : Nat) : Client :=
  match c.connection? i with
  | none => c
  | some connection => if connection.reading then c.readerEnds i connection else c

/-- The writing task of a connection takes its next step: it sends what was handed to it, and says
goodbye once it is let go. -/
def write (c : Client) (i : Nat) : Client × Option Frame :=
  match c.connection? i with
  | none => (c, none)
  | some connection =>
    if connection.writing then
      match connection.outgoing with
      | msg :: rest =>
        (c.modifyConnection i fun connection => { connection with outgoing := rest },
          some (.binary msg.encode))
      | [] =>
        if c.current = some i then (c, none)
        else (c.modifyConnection i fun connection => { connection with writing := false },
          some .close)
    else (c, none)

def writeFailed (c : Client) (i : Nat) : Client :=
  c.modifyConnection i fun connection => { connection with outgoing := [], writing := false }

def writeAll (c : Client) (i : Nat) (link : Link) : Nat → Client × Link
  | 0 => (c, link)
  | steps + 1 =>
    match c.write i with
    | (_, none) => (c, link)
    | (written, some frame) =>
      if link.serverOpen then written.writeAll i (link.sendToServer frame) steps
      else (written.writeFailed i, link)

def run (c : Client) (i : Nat) (link : Link) : Client × Link :=
  let (link, frames) := link.takeAtClient
  let c := frames.foldl (fun c frame => c.read i frame) c
  let c := if link.serverOpen then c else c.readEnd i
  let handed := ((c.connection? i).elim [] Connection.outgoing).length
  c.writeAll i link (handed + 1)

end Client

end RoomSync
