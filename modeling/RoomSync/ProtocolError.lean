import RoomSync.Message

namespace RoomSync

/-- The life of a session: a socket is open, the handshake is done, the connection is lost. -/
inductive Phase where
  | awaitingConnect
  | connected
  | awaitingRemoval
deriving DecidableEq, Repr, Inhabited

def Phase.name : Phase → String
  | .awaitingConnect => "awaiting-connect-message"
  | .connected => "connected"
  | .awaitingRemoval => "awaiting-removal"

inductive DecodeError where
  | malformed
  | trailing (count : Nat)
deriving DecidableEq, Repr, Inhabited

def DecodeError.message : DecodeError → String
  | .malformed => "malformed frame"
  | .trailing count => s!"{count} trailing bytes"

inductive PresenceFault where
  | empty
  | isDocument
  | isTaken
deriving DecidableEq, Repr, Inhabited

def PresenceFault.message : PresenceFault → String
  | .empty => "empty"
  | .isDocument => "collides with a document record"
  | .isTaken => "owned by another session"

inductive ProtocolError where
  | decode (cause : DecodeError)
  | unexpectedMessage (kind : MessageKind) (phase : Phase)
  | sessionKeyMismatch (expected got : String)
  | unknownSession (key : String)
  | invalidPresenceId (id : RecordId) (fault : PresenceFault)
  | connectionClosed
deriving DecidableEq, Repr, Inhabited

def ProtocolError.message : ProtocolError → String
  | .decode cause => s!"deserialization error: {cause.message}"
  | .unexpectedMessage kind phase =>
    s!"unexpected {kind.name} while session is {phase.name}"
  | .sessionKeyMismatch expected got =>
    s!"message for session '{got}' arrived on session '{expected}'"
  | .unknownSession key => s!"unknown session '{key}'"
  | .invalidPresenceId id fault => s!"presence id '{id}' {fault.message}"
  | .connectionClosed => "connection closed"

inductive RoomError where
  | protocol (error : ProtocolError)
  | rejected (reason : RejectReason)
deriving DecidableEq, Repr, Inhabited

def RoomError.message : RoomError → String
  | .protocol error => error.message
  | .rejected reason => s!"connection rejected: {reason.message}"

end RoomSync
