import RoomSync.Room.Delivery

namespace RoomSync

namespace Room

/-- The rejections of mutations under the ids of presence records. The pusher's own record is never
shown to it. -/
def reservedRejections (r : Room) (own : Option RecordId) (mutations : List Mutation) :
    List Rejection :=
  (mutations.filter fun m => r.isPresenceId m.recordId).map fun m =>
    { recordId := m.recordId
      reason := .reservedId m.recordId
      current := if own = some m.recordId then none else r.presence.get? m.recordId }

structure PushOutcome where
  changes : Changes
  rejected : List Rejection
deriving DecidableEq, Inhabited

def pushDocuments (r : Room) (own : Option RecordId) (mutations : List Mutation) :
    Room × PushOutcome :=
  let reserved := r.reservedRejections own mutations
  let rest := mutations.filter fun m => !r.isPresenceId m.recordId
  let (store, outcome) := r.store.apply r.config.schema rest
  ({ r with store }, ⟨outcome.changes, reserved ++ outcome.rejected⟩)

/-- Make the presence part of a push. The clock moves for it only if it did not move already, and
presence that stays the same is no change. -/
def pushPresence (r : Room) (own : RecordId) (content : Content) (outcome : PushOutcome) :
    Room × PushOutcome :=
  match r.config.schema.checkPresence content with
  | .error reason =>
    let rejection : Rejection := ⟨own, reason, r.presence.get? own⟩
    (r, { outcome with rejected := outcome.rejected ++ [rejection] })
  | .ok () =>
    if (r.presence.get? own).any fun record => record.content.same content then (r, outcome)
    else
      let store := if outcome.changes.isEmpty then r.store.advance else r.store
      let record : Record := ⟨own, presenceType, content, store.clock⟩
      ({ r with store, presence := r.presence.insert own record },
        { outcome with changes := outcome.changes.put record })

def applyPush (r : Room) (own : Option RecordId) (push : Push) : Room × PushOutcome :=
  let (r, outcome) := r.pushDocuments own push.mutations
  match push.presence, own with
  | some content, some own => r.pushPresence own content outcome
  | _, _ => (r, outcome)

end Room

namespace LiveRoom

variable {σ : Type} [Host σ]

/-- Take a push: the pusher gets the result, every other connected session the changes. -/
def receivePush (l : LiveRoom σ) (key : String) (push : Push) (now : Nat) :
    LiveRoom σ × Except RoomError PushResult :=
  if push.sessionKey ≠ key then
    (l, .error (.protocol (.sessionKeyMismatch key push.sessionKey)))
  else
    match l.room.session? key with
    | none => (l, .error (.protocol (.unknownSession key)))
    | some s =>
      if s.isConnected then
        let (room, outcome) := (l.room.modifySession key (·.touch now)).applyPush s.presenceId push
        let result : PushResult := ⟨push.pushId, room.clock, outcome.rejected⟩
        let l := sendData { l with room } key (.pushResult result) now
        let l := if outcome.changes.isEmpty then l else l.broadcast outcome.changes (some key) now
        (l, .ok result)
      else (l, .error (.protocol (.unexpectedMessage .push s.phase)))

end LiveRoom

end RoomSync
