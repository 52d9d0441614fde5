import RoomSync.Room.Delivery

namespace RoomSync.LiveRoom

variable {σ : Type} [Host σ]

def refuse (l : LiveRoom σ) (key : String) (s : Session) (socket : SocketId) (msg : ServerMessage)
    (cause : RemovalCause) (now : Nat) : LiveRoom σ :=
  let l := ((l.forget key).tell socket msg).close socket
  (l.dropPresence? s.presenceId now).note (.removed key cause)

/-- Connect a session under a presence id. The presence that it took over is dropped if it now uses
another id. -/
def accept (l : LiveRoom σ) (key : String) (s : Session) (waiting : Waiting)
    (request : ConnectRequest) (now : Nat) : LiveRoom σ × Accepted :=
  let l := (l.forget key).dropPresence?
    (s.presenceId.filter fun old => old ≠ request.presenceId) now
  let resumed := waiting.resume.isSome
  let accepted : Accepted :=
    { clock := l.room.clock
      schemaVersion := l.room.config.schema.version
      resumed := resumed
      hydration := l.room.hydration resumed request.lastKnownClock request.presenceId }
  let session : Session :=
    ⟨some request.presenceId, s.info,
      .connected (waiting.accept request.schema l.room.clock now)⟩
  let room := { l.room with sessions := l.room.sessions.insert key session }
  let l := ({ l with room } : LiveRoom σ).note (.connected key resumed)
  (l.sendFrame key waiting.socket (.connected accepted) now, accepted)

/-- Decide a handshake. One that is refused for its contents removes the session; one that comes
under a wrong key or out of turn changes nothing. -/
def connect (l : LiveRoom σ) (key : String) (request : ConnectRequest) (now : Nat) :
    LiveRoom σ × Except RoomError Accepted :=
  if request.sessionKey ≠ key then
    (l, .error (.protocol (.sessionKeyMismatch key request.sessionKey)))
  else
    match l.room.session? key with
    | none => (l, .error (.protocol (.unknownSession key)))
    | some s =>
      match s.state with
      | .awaitingConnect waiting =>
        match l.room.admission key request with
        | .error reason =>
          (l.refuse key s waiting.socket (.rejectConnect reason) .rejected now,
            .error (.rejected reason))
        | .ok () =>
          match l.room.presenceFault? key request.presenceId with
          | some fault =>
            let error : ProtocolError := .invalidPresenceId request.presenceId fault
            (l.refuse key s waiting.socket (.error error.message) .protocolError now,
              .error (.protocol error))
          | none =>
            let (l, accepted) := l.accept key s waiting request now
            (l, .ok accepted)
      | _ => (l, .error (.protocol (.unexpectedMessage .connect s.phase)))

end RoomSync.LiveRoom
