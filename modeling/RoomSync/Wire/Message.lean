import RoomSync.Content.Printer
import RoomSync.Content.Reader
import RoomSync.ProtocolError
import RoomSync.Wire

namespace RoomSync.Wire

def writeContent (c : Content) : Bytes := writeText c.print

def readContent : Reader Content := do
  match Content.read? (← readText) with
  | some c => pure c
  | none => failure

def writeRecord (r : Record) : Bytes :=
  writeText r.id ++ writeText r.typeName ++ writeContent r.content ++ writeNat r.stamp

def readRecord : Reader Record := do
  let id ← readText
  let typeName ← readText
  let content ← readContent
  let stamp ← read64
  pure ⟨id, typeName, content, stamp⟩

def writeEdit : Edit → Bytes
  | .upsert typeName content => writeNat 0 ++ writeText typeName ++ writeContent content
  | .delete => writeNat 1

def readEdit : Reader Edit := do
  match ← read32 with
  | 0 =>
    let typeName ← readText
    let content ← readContent
    pure (.upsert typeName content)
  | 1 => pure .delete
  | _ => failure

def writeMutation (m : Mutation) : Bytes := writeText m.recordId ++ writeEdit m.edit

def readMutation : Reader Mutation := do
  let recordId ← readText
  let edit ← readEdit
  pure ⟨recordId, edit⟩

def writeSummary (s : SchemaSummary) : Bytes :=
  writeNat s.version ++ writeList writeText s.recordTypes

def readSummary : Reader SchemaSummary := do
  let version ← read32
  let recordTypes ← readList readText
  pure ⟨version, recordTypes⟩

def writeConnectRequest (r : ConnectRequest) : Bytes :=
  writeText r.sessionKey ++ writeText r.presenceId ++ writeSummary r.schema ++
    writeOption writeNat r.lastKnownClock

def readConnectRequest : Reader ConnectRequest := do
  let sessionKey ← readText
  let presenceId ← readText
  let schema ← readSummary
  let lastKnownClock ← readOption read64
  pure ⟨sessionKey, presenceId, schema, lastKnownClock⟩

def writePush (p : Push) : Bytes :=
  writeText p.sessionKey ++ writeNat p.pushId ++ writeList writeMutation p.mutations ++
    writeOption writeContent p.presence

def readPush : Reader Push := do
  let sessionKey ← readText
  let pushId ← read64
  let mutations ← readList readMutation
  let presence ← readOption readContent
  pure ⟨sessionKey, pushId, mutations, presence⟩

def writeClientMessage : ClientMessage → Bytes
  | .connect request => writeNat 0 ++ writeConnectRequest request
  | .push push => writeNat 1 ++ writePush push
  | .ping => writeNat 2

def readClientMessage : Reader ClientMessage := do
  match ← read32 with
  | 0 => .connect <$> readConnectRequest
  | 1 => .push <$> readPush
  | 2 => pure .ping
  | _ => failure

def writeFieldKind : FieldKind → Bytes
  | .string => writeNat 0
  | .number => writeNat 1
  | .bool => writeNat 2
  | .object => writeNat 3
  | .array => writeNat 4
  | .any => writeNat 5

def readFieldKind : Reader FieldKind := do
  match ← read32 with
  | 0 => pure .string
  | 1 => pure .number
  | 2 => pure .bool
  | 3 => pure .object
  | 4 => pure .array
  | 5 => pure .any
  | _ => failure

def writeRefusal : Refusal → Bytes
  | .unknownType typeName => writeNat 0 ++ writeText typeName
  | .wrongScope typeName => writeNat 1 ++ writeText typeName
  | .notAnObject => writeNat 2
  | .missingField field => writeNat 3 ++ writeText field
  | .wrongFieldKind field expected => writeNat 4 ++ writeText field ++ writeFieldKind expected
  | .emptyId => writeNat 5
  | .reservedId id => writeNat 6 ++ writeText id

def readRefusal : Reader Refusal := do
  match ← read32 with
  | 0 => .unknownType <$> readText
  | 1 => .wrongScope <$> readText
  | 2 => pure .notAnObject
  | 3 => .missingField <$> readText
  | 4 =>
    let field ← readText
    let expected ← readFieldKind
    pure (.wrongFieldKind field expected)
  | 5 => pure .emptyId
  | 6 => .reservedId <$> readText
  | _ => failure

def writeRejection (r : Rejection) : Bytes :=
  writeText r.recordId ++ writeRefusal r.reason ++ writeOption writeRecord r.current

def readRejection : Reader Rejection := do
  let recordId ← readText
  let reason ← readRefusal
  let current ← readOption readRecord
  pure ⟨recordId, reason, current⟩

def writePushResult (r : PushResult) : Bytes :=
  writeNat r.pushId ++ writeNat r.clock ++ writeList writeRejection r.rejected

def readPushResult : Reader PushResult := do
  let pushId ← read64
  let clock ← read64
  let rejected ← readList readRejection
  pure ⟨pushId, clock, rejected⟩

def writeChange : Change → Bytes
  | .put record => writeNat 0 ++ writeRecord record
  | .remove => writeNat 1

def readChange : Reader Change := do
  match ← read32 with
  | 0 => .put <$> readRecord
  | 1 => pure .remove
  | _ => failure

def writePatch (p : Patch) : Bytes :=
  writeNat p.fromClock ++ writeNat p.toClock ++ writeTable writeChange p.changes

def readPatch : Reader Patch := do
  let fromClock ← read64
  let toClock ← read64
  let changes ← readTable readChange
  pure ⟨fromClock, toClock, changes⟩

def writeDataMessage : DataMessage → Bytes
  | .patch patch => writeNat 0 ++ writePatch patch
  | .pushResult result => writeNat 1 ++ writePushResult result

def readDataMessage : Reader DataMessage := do
  match ← read32 with
  | 0 => .patch <$> readPatch
  | 1 => .pushResult <$> readPushResult
  | _ => failure

def writeHydration : Hydration → Bytes
  | .full records => writeNat 0 ++ writeList writeRecord records
  | .incremental patch => writeNat 1 ++ writePatch patch

def readHydration : Reader Hydration := do
  match ← read32 with
  | 0 => .full <$> readList readRecord
  | 1 => .incremental <$> readPatch
  | _ => failure

def writeAccepted (a : Accepted) : Bytes :=
  writeNat a.clock ++ writeNat a.schemaVersion ++ writeBool a.resumed ++ writeHydration a.hydration

def readAccepted : Reader Accepted := do
  let clock ← read64
  let schemaVersion ← read32
  let resumed ← readBool
  let hydration ← readHydration
  pure ⟨clock, schemaVersion, resumed, hydration⟩

def writeSchemaMismatch : SchemaMismatch → Bytes
  | .clientTooOld => writeNat 0
  | .serverTooOld => writeNat 1

def readSchemaMismatch : Reader SchemaMismatch := do
  match ← read32 with
  | 0 => pure .clientTooOld
  | 1 => pure .serverTooOld
  | _ => failure

def writeRejectReason : RejectReason → Bytes
  | .schemaMismatch side => writeNat 0 ++ writeSchemaMismatch side
  | .roomFull => writeNat 1
  | .forbidden => writeNat 2

def readRejectReason : Reader RejectReason := do
  match ← read32 with
  | 0 => .schemaMismatch <$> readSchemaMismatch
  | 1 => pure .roomFull
  | 2 => pure .forbidden
  | _ => failure

def writeServerMessage : ServerMessage → Bytes
  | .connected accepted => writeNat 0 ++ writeAccepted accepted
  | .rejectConnect reason => writeNat 1 ++ writeRejectReason reason
  | .data batch => writeNat 2 ++ writeList writeDataMessage batch
  | .pong => writeNat 3
  | .error message => writeNat 4 ++ writeText message

def readServerMessage : Reader ServerMessage := do
  match ← read32 with
  | 0 => .connected <$> readAccepted
  | 1 => .rejectConnect <$> readRejectReason
  | 2 => .data <$> readList readDataMessage
  | 3 => pure .pong
  | 4 => .error <$> readText
  | _ => failure

def readFrame {α : Type} (read : Reader α) (bytes : Bytes) : Except DecodeError α :=
  match read bytes with
  | none => .error .malformed
  | some (a, []) => .ok a
  | some (_, rest) => .error (.trailing rest.length)

end RoomSync.Wire

namespace RoomSync

open Wire

def ClientMessage.encode : ClientMessage → Bytes := writeClientMessage

def ClientMessage.decode : Bytes → Except DecodeError ClientMessage := readFrame readClientMessage

def ServerMessage.encode : ServerMessage → Bytes := writeServerMessage

def ServerMessage.decode : Bytes → Except DecodeError ServerMessage := readFrame readServerMessage

end RoomSync
