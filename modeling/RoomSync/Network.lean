import RoomSync.Host
import RoomSync.Wire.Message

namespace RoomSync

inductive SocketKind where
  | memory (capacity : Option Nat)
  | channel (capacity : Nat)
deriving DecidableEq, Repr, Inhabited

structure Socket where
  kind : SocketKind
  frames : List Wire.Bytes := []
  closed : Bool := false
  abandoned : Bool := false
deriving DecidableEq, Inhabited

namespace Socket

def limit (s : Socket) : Option Nat :=
  match s.kind with
  | .memory capacity => capacity
  | .channel capacity => some capacity

def isFull (s : Socket) : Bool :=
  match s.limit with
  | some capacity => capacity ≤ s.frames.length
  | none => false

def isChannel (s : Socket) : Bool :=
  match s.kind with
  | .memory _ => false
  | .channel _ => true

def send (s : Socket) (frame : Wire.Bytes) : Socket × Option SocketError :=
  if s.closed || s.abandoned then (s, some .closed)
  else if s.isFull then (s, some .full)
  else ({ s with frames := s.frames ++ [frame] }, none)

def close (s : Socket) : Socket := { s with closed := true }

def abandon (s : Socket) : Socket :=
  if s.isChannel then { s with abandoned := true, frames := [] } else s

def drain (s : Socket) : Socket × List Wire.Bytes := ({ s with frames := [] }, s.frames)

inductive Received where
  | frame (bytes : Wire.Bytes)
  | empty
  | disconnected
deriving DecidableEq, Inhabited

def receive (s : Socket) : Socket × Received :=
  match s.frames with
  | frame :: rest => ({ s with frames := rest }, .frame frame)
  | [] => (s, if s.closed then .disconnected else .empty)

end Socket

/-- All sockets that were ever opened, by number. -/
structure Network where
  sockets : List Socket := []
deriving DecidableEq, Inhabited

namespace Network

def socket? (n : Network) (id : SocketId) : Option Socket := n.sockets[id]?

def openSocket (n : Network) (kind : SocketKind) : Network × SocketId :=
  (⟨n.sockets ++ [{ kind := kind }]⟩, n.sockets.length)

def modify (n : Network) (id : SocketId) (f : Socket → Socket) : Network :=
  ⟨n.sockets.modify id f⟩

def close (n : Network) (id : SocketId) : Network := n.modify id Socket.close

def send (n : Network) (id : SocketId) (msg : ServerMessage) : Network × Option SocketError :=
  match n.socket? id with
  | none => (n, some .closed)
  | some s =>
    let (s, error) := s.send msg.encode
    (n.modify id fun _ => s, error)

def drain (n : Network) (id : SocketId) : Network × List Wire.Bytes :=
  match n.socket? id with
  | none => (n, [])
  | some s =>
    let (s, frames) := s.drain
    (n.modify id fun _ => s, frames)

instance : Host Network where
  send := send
  close := close
  visit := fun _ keys => keys
  visit_perm := fun _ keys => List.Perm.refl keys

end Network

end RoomSync
