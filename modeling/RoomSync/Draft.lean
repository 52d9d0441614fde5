import RoomSync.Message
import RoomSync.Replica

namespace RoomSync

inductive SyncEvent where
  | connected (clock : Nat) (resumed : Bool)
  | rejected (reason : RejectReason)
  | remoteChanges (clock : Nat) (changed : Nat)
  | pushSettled (pushId : Nat) (clock : Nat) (rejected : List RecordId)
  | pong
  | serverError (message : String)
  | disconnected
deriving DecidableEq, Repr, Inhabited

/-- A push that the room has not settled yet. -/
structure PendingPush where
  pushId : Nat
  mutations : List Mutation
deriving DecidableEq, Repr, Inhabited

/-- The working copy of a client: its replica, with the pushes that the room has not settled yet
laid over it. -/
structure Draft where
  sessionKey : String
  replica : Replica
  /-- Unsettled pushes, the oldest first. -/
  pending : List PendingPush
  nextPushId : Nat
  synced : Bool
deriving DecidableEq, Inhabited

namespace Draft

def start (sessionKey : String) : Draft := ⟨sessionKey, .empty, [], 1, false⟩

def lastKnownClock (d : Draft) : Option Nat := if d.synced then some d.replica.clock else none

def allot (d : Draft) : Draft × Nat := ({ d with nextPushId := d.nextPushId + 1 }, d.nextPushId)

def push (d : Draft) (mutations : List Mutation) : Draft × PendingPush :=
  let (d, pushId) := d.allot
  let pending : PendingPush := ⟨pushId, mutations⟩
  ({ d with
      replica := d.replica.applyLocal mutations
      pending := d.pending ++ [pending] }, pending)

def pushMessage (d : Draft) (p : PendingPush) : ClientMessage :=
  .push ⟨d.sessionKey, p.pushId, p.mutations, none⟩

def overlay (pending : List PendingPush) (replica : Replica) : Replica :=
  pending.foldl (fun replica p => replica.applyLocal p.mutations) replica

def rebase (d : Draft) (replica : Replica) : Draft :=
  { d with replica := overlay d.pending replica }

/-- Settle a push: what was not rejected is the room's state now, and what was rejected goes back to
what the room holds. -/
def settle (d : Draft) (result : PushResult) : Draft × SyncEvent :=
  let settled := d.pending.find? fun p => p.pushId = result.pushId
  let rejected := result.rejected.map (·.recordId)
  let touched := (settled.elim [] PendingPush.mutations).map (·.recordId)
  let accepted := touched.filter fun id => !rejected.contains id
  let restored := result.rejected.map fun r => (r.recordId, r.current)
  ({ d with
      replica := d.replica.commitLocal result.clock accepted restored
      pending := d.pending.filter fun p => p.pushId ≠ result.pushId },
    .pushSettled result.pushId result.clock rejected)

/-- Take the state that a connection starts from. A patch that starts too late leaves the replica as
it is. -/
def hydrate (d : Draft) (accepted : Accepted) : Draft :=
  let replica := match accepted.hydration with
    | .full records => .hydrate accepted.clock records
    | .incremental patch => (d.replica.catchUp patch).toOption.getD d.replica
  { d with synced := true }.rebase replica

/-- Fold one data message into the copy. A patch that is stale or starts too late is dropped. -/
def foldData (d : Draft) : DataMessage → Draft × Option SyncEvent
  | .patch patch =>
    match d.replica.applyPatch patch with
    | .ok (true, replica) =>
      (d.rebase replica, some (.remoteChanges patch.toClock patch.changes.size))
    | .ok (false, _) | .error _ => (d, none)
  | .pushResult result =>
    let (d, event) := d.settle result
    (d, some event)

def foldBatch (d : Draft) : List DataMessage → Draft × List SyncEvent
  | [] => (d, [])
  | msg :: rest =>
    let (d, event) := d.foldData msg
    let (d, events) := d.foldBatch rest
    (d, event.toList ++ events)

structure Folded where
  draft : Draft
  events : List SyncEvent
  replies : List ClientMessage
deriving DecidableEq, Inhabited

/-- Fold a message into the copy. An accepted handshake is answered with the unsettled pushes. -/
def fold (d : Draft) : ServerMessage → Folded
  | .connected accepted =>
    let d := d.hydrate accepted
    ⟨d, [.connected accepted.clock accepted.resumed], d.pending.map d.pushMessage⟩
  | .rejectConnect reason => ⟨d, [.rejected reason], []⟩
  | .data batch =>
    let (d, events) := d.foldBatch batch
    ⟨d, events, []⟩
  | .pong => ⟨d, [.pong], []⟩
  | .error message => ⟨d, [.serverError message], []⟩

end Draft

end RoomSync
