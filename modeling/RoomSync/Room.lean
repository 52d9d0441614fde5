import RoomSync.Session
import RoomSync.Store

namespace RoomSync

inductive CancelCause where
  | socketClosed
  | idleTimeout
  /-- Too much was held back for it, or its socket could not keep up. -/
  | slowConsumer
deriving DecidableEq, Repr, Inhabited

inductive RemovalCause where
  | startTimeout
  | closedBeforeConnect
  | removalGrace
  | rejected
  | protocolError
  | kicked
deriving DecidableEq, Repr, Inhabited

inductive LifecycleEvent where
  | connected (key : String) (resumed : Bool)
  | cancelled (key : String) (cause : CancelCause)
  | removed (key : String) (cause : RemovalCause)
deriving DecidableEq, Repr, Inhabited

/-- A room: the single authority for one shared document. -/
structure Room where
  config : Config
  store : Store
  /-- Presence records, each under its own id. -/
  presence : Table Record
  sessions : Table Session
  /-- The keys of sessions that were kicked; they may not connect again. -/
  forbidden : List String
  events : List LifecycleEvent
deriving DecidableEq, Inhabited

namespace Room

def withStore (config : Config) (store : Store) : Room :=
  ⟨config, store, Table.empty, Table.empty, [], []⟩

def new (config : Config) : Room :=
  withStore config (.empty config.maxTombstones config.pruneBuffer)

def ofSnapshot (config : Config) (snapshot : Snapshot) : Room :=
  withStore config (.ofSnapshot snapshot config.maxTombstones config.pruneBuffer)

def clock (r : Room) : Nat := r.store.clock

def snapshot (r : Room) : Snapshot := r.store.snapshot

def session? (r : Room) (key : String) : Option Session := r.sessions.get? key

def connected? (r : Room) (key : String) : Option Connected :=
  (r.session? key).bind Session.connected?

def connectedKeys (r : Room) : List String := (r.sessions.filter fun _ s => s.isConnected).keys

/-- No session is left, not even one that could be resumed. -/
def isEmpty (r : Room) : Bool := r.sessions.isEmpty

def note (r : Room) (event : LifecycleEvent) : Room := { r with events := r.events ++ [event] }

def modifySession (r : Room) (key : String) (f : Session → Session) : Room :=
  { r with sessions := r.sessions.modify key f }

def isPresenceId (r : Room) (id : RecordId) : Bool :=
  r.presence.contains id || r.sessions.values.any fun s => s.presenceId = some id

/-- Whether a handshake is let in: its key is not forbidden, its schema is supported, and there is
room beside the other connected sessions. -/
def admission (r : Room) (key : String) (request : ConnectRequest) : Except RejectReason Unit :=
  if key ∈ r.forbidden then .error .forbidden
  else
    match r.config.schema.checkClient request.schema with
    | .error side => .error (.schemaMismatch side)
    | .ok () =>
      let others := r.connectedKeys.filter fun k => k ≠ key
      if r.config.maxSessions ≤ others.length then .error .roomFull else .ok ()

def presenceFault? (r : Room) (key : String) (id : RecordId) : Option PresenceFault :=
  if id = "" then some .empty
  else if (r.store.get? id).isSome then some .isDocument
  else if r.sessions.entries.any fun e => e.1 ≠ key && e.2.presenceId = some id then some .isTaken
  else none

def presenceOfOthers (r : Room) (own : RecordId) : List Record :=
  r.presence.values.filter fun record => record.id ≠ own

/-- What a session starts from: the changes after its clock, if it is resumed and those are still
known, and everything otherwise. Presence is sent in full either way. -/
def hydration (r : Room) (resumed : Bool) (lastKnownClock : Option Nat) (own : RecordId) :
    Hydration :=
  let others := r.presenceOfOthers own
  match lastKnownClock.filter fun clock => resumed && r.store.canCatchUp clock with
  | some since =>
    .incremental ⟨since, r.clock, others.foldl Changes.put (r.store.changesSince since)⟩
  | none => .full (r.store.records.values ++ others)

end Room

end RoomSync
