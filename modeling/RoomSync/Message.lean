import RoomSync.Change
import RoomSync.Mutation

namespace RoomSync

structure ConnectRequest where
  sessionKey : String
  presenceId : RecordId
  schema : SchemaSummary
  /-- The clock of the client's replica, if it has one. -/
  lastKnownClock : Option Nat
deriving DecidableEq, Repr, Inhabited

structure Push where
  sessionKey : String
  pushId : Nat
  mutations : List Mutation
  presence : Option Content
deriving DecidableEq, Repr, Inhabited

inductive ClientMessage where
  | connect (request : ConnectRequest)
  | push (push : Push)
  | ping
deriving DecidableEq, Repr, Inhabited

inductive MessageKind where
  | connect
  | push
  | ping
deriving DecidableEq, Repr, Inhabited

def MessageKind.name : MessageKind → String
  | .connect => "connect"
  | .push => "push"
  | .ping => "ping"

def ClientMessage.kind : ClientMessage → MessageKind
  | .connect _ => .connect
  | .push _ => .push
  | .ping => .ping

structure PushResult where
  pushId : Nat
  clock : Nat
  rejected : List Rejection
deriving DecidableEq, Repr, Inhabited

/-- The messages that may be held back and sent in batches. -/
inductive DataMessage where
  | patch (patch : Patch)
  | pushResult (result : PushResult)
deriving DecidableEq, Inhabited

/-- The state that a newly connected session starts from. -/
inductive Hydration where
  | full (records : List Record)
  /-- Only what changed after the clock that the client knows. -/
  | incremental (patch : Patch)
deriving DecidableEq, Inhabited

structure Accepted where
  clock : Nat
  schemaVersion : Nat
  /-- Whether the session continues an earlier one. -/
  resumed : Bool
  hydration : Hydration
deriving DecidableEq, Inhabited

inductive RejectReason where
  | schemaMismatch (side : SchemaMismatch)
  | roomFull
  | forbidden
deriving DecidableEq, Repr, Inhabited

def RejectReason.message : RejectReason → String
  | .schemaMismatch side => s!"schema mismatch: {side.message}"
  | .roomFull => "room is full"
  | .forbidden => "forbidden"

inductive ServerMessage where
  | connected (accepted : Accepted)
  | rejectConnect (reason : RejectReason)
  | data (batch : List DataMessage)
  | pong
  /-- Sent before the room drops a session for breaking the protocol. -/
  | error (message : String)
deriving DecidableEq, Inhabited

end RoomSync
