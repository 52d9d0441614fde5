import RoomSync.Schema

namespace RoomSync

inductive Edit where
  | upsert (typeName : String) (content : Content)
  | delete
deriving DecidableEq, Repr, Inhabited

structure Mutation where
  recordId : RecordId
  edit : Edit
deriving DecidableEq, Repr, Inhabited

def Schema.refusal? (s : Schema) (m : Mutation) : Option Refusal :=
  match m.edit with
  | .upsert typeName content =>
    match s.checkDocument m.recordId typeName content with
    | .error reason => some reason
    | .ok () => none
  | .delete => none

/-- A mutation that was not made, with the value that stands instead. -/
structure Rejection where
  recordId : RecordId
  reason : Refusal
  current : Option Record
deriving DecidableEq, Repr, Inhabited

end RoomSync
