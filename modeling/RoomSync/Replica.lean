import RoomSync.Change
import RoomSync.Mutation

namespace RoomSync

/-- The records of a room as of some clock, with local edits laid over them until the room has
settled them. -/
structure Replica where
  clock : Nat
  records : Table Record
deriving DecidableEq, Inhabited

structure ClockGap where
  expected : Nat
  got : Nat
deriving DecidableEq, Repr, Inhabited

def ClockGap.message (gap : ClockGap) : String :=
  s!"patch starts at clock {gap.got} but replica is at {gap.expected}"

namespace Replica

def empty : Replica := ⟨0, Table.empty⟩

def get? (r : Replica) (id : RecordId) : Option Record := r.records.get? id

def documents (r : Replica) : List Record :=
  r.records.values.filter fun record => !record.isPresence

def presence (r : Replica) : List Record := r.records.values.filter Record.isPresence

def values (r : Replica) : Table (String × Content) :=
  r.records.map fun record => (record.typeName, record.content)

def hydrate (clock : Nat) (records : List Record) : Replica := ⟨clock, Record.table records⟩

/-- Make the changes of a patch, unless the replica's clock covers them already; the truth value
tells whether they were made. -/
def applyPatch (r : Replica) (patch : Patch) : Except ClockGap (Bool × Replica) :=
  if patch.toClock ≤ r.clock then .ok (false, r)
  else if patch.fromClock > r.clock then .error ⟨r.clock, patch.fromClock⟩
  else .ok (true, ⟨patch.toClock, patch.changes.applyTo r.records⟩)

/-- Catch up after a reconnect. Presence is sent in full on each handshake, so the presence that
the replica still has is dropped first. -/
def catchUp (r : Replica) (patch : Patch) : Except ClockGap Replica :=
  if patch.fromClock > r.clock then .error ⟨r.clock, patch.fromClock⟩
  else
    let documents := r.records.filter fun _ record => !record.isPresence
    .ok ⟨patch.toClock, patch.changes.applyTo documents⟩

/-- Make one edit before the room has stamped it: a record that was there keeps its stamp. -/
def editOne (r : Replica) (m : Mutation) : Replica :=
  match m.edit with
  | .upsert typeName content =>
    let stamp := match r.get? m.recordId with
      | some old => old.stamp
      | none => r.clock
    { r with records := r.records.insert m.recordId ⟨m.recordId, typeName, content, stamp⟩ }
  | .delete => { r with records := r.records.erase m.recordId }

def applyLocal (r : Replica) (mutations : List Mutation) : Replica := mutations.foldl editOne r

def restamp (clock : Nat) (records : Table Record) (id : RecordId) : Table Record :=
  records.modify id fun record => { record with stamp := clock }

def restore (records : Table Record) (entry : RecordId × Option Record) : Table Record :=
  match entry.2 with
  | some record => records.insert entry.1 record
  | none => records.erase entry.1

/-- Settle a push that the room has taken at a clock: accepted records take that clock as their
stamp, rejected ones go back to what the room holds. -/
def commitLocal (r : Replica) (clock : Nat) (accepted : List RecordId)
    (restored : List (RecordId × Option Record)) : Replica :=
  ⟨max r.clock clock, restored.foldl restore (accepted.foldl (restamp clock) r.records)⟩

end Replica

end RoomSync
