import RoomSync.Record

namespace RoomSync

/-- What happens to one record: there is no merging inside a record. -/
inductive Change where
  | put (record : Record)
  | remove
deriving DecidableEq, Repr, Inhabited

abbrev Changes := Table Change

namespace Change

def result : Change → Option Record
  | .put record => some record
  | .remove => none

end Change

namespace Changes

def put (changes : Changes) (record : Record) : Changes :=
  changes.insert record.id (.put record)

def remove (changes : Changes) (id : RecordId) : Changes := changes.insert id .remove

def applyOne (records : Table Record) (entry : RecordId × Change) : Table Record :=
  match entry.2 with
  | .put record => records.insert entry.1 record
  | .remove => records.erase entry.1

def applyTo (changes : Changes) (records : Table Record) : Table Record :=
  changes.entries.foldl applyOne records

def holdsValue (records : Table Record) (id : RecordId) (record : Record) : Bool :=
  match records.get? id with
  | some old => old.sameValue record.typeName record.content
  | none => false

/-- The changes that turn one set of records into the values of another one: the records that are
new or have another value, and the ids that are gone. -/
def between (before after : Table Record) : Changes :=
  let written := after.entries.filter fun entry => !holdsValue before entry.1 entry.2
  let gone := before.keys.filter fun id => !after.contains id
  gone.foldl remove (written.foldl (fun changes entry => changes.put entry.2) Table.empty)

end Changes

structure Patch where
  /-- The clock of the receiver before the patch. -/
  fromClock : Nat
  /-- The clock of the receiver after the patch. -/
  toClock : Nat
  changes : Changes
deriving DecidableEq, Inhabited

namespace Patch

def absorb (patch later : Patch) : Patch :=
  ⟨patch.fromClock, later.toClock, patch.changes.union later.changes⟩

def chains (patch later : Patch) : Prop := patch.toClock = later.fromClock

end Patch

end RoomSync
