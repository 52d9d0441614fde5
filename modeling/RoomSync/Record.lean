import RoomSync.Content

namespace RoomSync

abbrev RecordId := String

structure Record where
  id : RecordId
  typeName : String
  content : Content
  /-- The clock at which this version was accepted. -/
  stamp : Nat
deriving DecidableEq, Repr, Inhabited

/-- The type of the records that belong to one session and are never stored. -/
def presenceType : String := "presence"

namespace Record

/-- Same type and content, whatever the stamp. -/
def sameValue (r : Record) (typeName : String) (content : Content) : Bool :=
  r.typeName = typeName && r.content.same content

def isPresence (r : Record) : Bool := r.typeName = presenceType

def table (records : List Record) : Table Record := Table.ofList (records.map fun r => (r.id, r))

end Record

end RoomSync
