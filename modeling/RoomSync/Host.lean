import RoomSync.Message

namespace RoomSync

/-- Sockets are numbered in the order in which they are opened. -/
abbrev SocketId := Nat

inductive SocketError where
  | closed
  | full
deriving DecidableEq, Repr, Inhabited

def SocketError.message : SocketError → String
  | .closed => "socket closed"
  | .full => "socket send buffer full"

/-- What a room needs from the program that holds it: sockets that take messages without waiting and
can be hung up, and an order in which a set of sessions is visited. -/
class Host (σ : Type) where
  /-- Hand a message to a socket, or learn why it cannot take it. -/
  send : σ → SocketId → ServerMessage → σ × Option SocketError
  close : σ → SocketId → σ
  /-- The order in which the sessions with the given keys are served. -/
  visit : σ → List String → List String
  visit_perm : ∀ (host : σ) (keys : List String), (visit host keys).Perm keys

end RoomSync
