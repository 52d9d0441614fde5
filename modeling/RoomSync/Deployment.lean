import RoomSync.Client
import RoomSync.Server

namespace RoomSync

/-- Who is at the other end of a connection to the server. -/
inductive Peer where
  | client (client connection : Nat)
  | raw
deriving DecidableEq, Repr, Inhabited

structure Line where
  peer : Peer
  link : Link
deriving DecidableEq, Repr, Inhabited

inductive DialError where
  | noTarget
  | nobodyListens
  | refused (reason : RouteError)
deriving DecidableEq, Repr, Inhabited

/-- A server and its clients in one process. Everything that can happen after a call happens before
the next one, in a fixed order. -/
structure Deployment where
  server : Server
  listening : Bool
  clients : List Client
  lines : List Line

namespace Deployment

def start (config : ServerConfig) (snapshots : Table Snapshot) : Deployment :=
  ⟨.start config snapshots, true, [], []⟩

def client? (d : Deployment) (c : Nat) : Option Client := d.clients[c]?

def setClient (d : Deployment) (c : Nat) (client : Client) : Deployment :=
  { d with clients := d.clients.set c client }

def setLink (d : Deployment) (i : Nat) (link : Link) : Deployment :=
  { d with lines := d.lines.modify i fun line => { line with link } }

def addClient (d : Deployment) (client : Client) : Deployment × Nat :=
  ({ d with clients := d.clients ++ [client] }, d.clients.length)

def dial (d : Deployment) (peer : Peer) (target? : Option Target) (now : Nat) :
    Deployment × Except DialError Nat :=
  match target? with
  | none => (d, .error .noTarget)
  | some target =>
    if d.listening then
      match d.server.accept target "in memory" now with
      | (server, .ok i) => ({ d with server, lines := d.lines ++ [⟨peer, {}⟩] }, .ok i)
      | (server, .error reason) => ({ d with server }, .error (.refused reason))
    else (d, .error .nobodyListens)

def connect (d : Deployment) (c : Nat) (now : Nat) : Deployment × Except ProtocolError Unit :=
  match d.client? c with
  | none => (d, .error .connectionClosed)
  | some client =>
    let (client, request) := client.beginConnect
    match d.dial (.client c client.connections.length) client.target? now with
    | (d, .ok _) => (d.setClient c (client.connectMade request), .ok ())
    | (d, .error _) => (d.setClient c client.connectFailed, .error .connectionClosed)

def sendRaw (d : Deployment) (i : Nat) (frame : Frame) : Deployment × Bool :=
  match d.lines[i]? with
  | none => (d, false)
  | some line => (d.setLink i (line.link.sendToServer frame), line.link.serverOpen)

def takeRaw (d : Deployment) (i : Nat) : Deployment × List Frame :=
  match d.lines[i]? with
  | none => (d, [])
  | some line =>
    let (link, frames) := line.link.takeAtClient
    (d.setLink i link, frames)

def dropRaw (d : Deployment) (i : Nat) : Deployment :=
  match d.lines[i]? with
  | none => d
  | some line => d.setLink i line.link.dropClient

/-- The listener fails. The server stops and sweeps no more, but its connections go on. -/
def breakListener (d : Deployment) : Deployment × ServerError :=
  ({ d with listening := false }, .acceptFailed)

def tick (d : Deployment) (now : Nat) : Deployment :=
  if d.listening then { d with server := d.server.tick now } else d

def forwardAll (server : Server) (i : Nat) (link : Link) : Nat → Server × Link
  | 0 => (server, link)
  | steps + 1 =>
    match server.forward i with
    | (server, none) => (server, link)
    | (server, some frame) => forwardAll server i (link.sendToClient frame) steps

def sendTurn (d : Deployment) (i : Nat) (line : Line) (now : Nat) : Deployment × Link :=
  let waiting := (d.server.connection? i).bind fun c => d.server.registry.host.socket? c.socket
  let frames := (waiting.elim [] Socket.frames).length
  let (server, link) := forwardAll d.server i line.link (frames + 1)
  let link := if (server.running? i).isSome then link else link.dropServer
  ({ d with server := server.leave i now }, link)

def clientTurn (d : Deployment) (peer : Peer) (link : Link) : Deployment × Link :=
  match peer with
  | .raw => (d, link)
  | .client c connection =>
    match d.client? c with
    | none => (d, link)
    | some client =>
      let (client, link) := client.run connection link
      (d.setClient c client, link)

def hearOne (i now : Nat) (state : Server × Link) (frame : Frame) : Server × Link :=
  let (server, reply) := state.1.hear i frame now
  (server, reply.elim state.2 state.2.sendToClient)

def hearTurn (d : Deployment) (i : Nat) (link : Link) (now : Nat) : Deployment :=
  let (link, frames) := link.takeAtServer
  let (server, link) := frames.foldl (hearOne i now) (d.server, link)
  let server := if link.clientOpen then server else server.hearEnd i
  { d with server }.setLink i link

def turn (now : Nat) (d : Deployment) (i : Nat) : Deployment :=
  match d.lines[i]? with
  | none => d
  | some line =>
    let (d, link) := d.sendTurn i line now
    let (d, link) := d.clientTurn line.peer link
    d.hearTurn i link now

def round (d : Deployment) (now : Nat) : Deployment :=
  (List.range d.lines.length).foldl (turn now) d

def rounds (now : Nat) : Nat → Deployment → Deployment
  | 0, d => d
  | n + 1, d => rounds now n (d.round now)

/-- Let everything happen that the last call has set off. A handshake is answered, the answer sets
off the unsettled pushes, and these their results; beyond that, each connection ends at most
once. -/
def settle (d : Deployment) (now : Nat) : Deployment := rounds now (d.lines.length + 8) d

end Deployment

end RoomSync
