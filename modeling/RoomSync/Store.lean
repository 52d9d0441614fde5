import RoomSync.Change
import RoomSync.Mutation

namespace RoomSync

structure Snapshot where
  clock : Nat
  records : List Record
deriving DecidableEq, Repr, Inhabited

/-- The document records, the clock that counts their changes, and the tombstones of deleted records
from which a returning client can be caught up. -/
structure Store where
  clock : Nat
  records : Table Record
  /-- The clock at which each deleted record was deleted. -/
  tombstones : Table Nat
  /-- The oldest clock from which all deletions are still known. -/
  horizon : Nat
  maxTombstones : Nat
  /-- How many tombstones more than needed are dropped at once. -/
  pruneBuffer : Nat
deriving DecidableEq, Inhabited

namespace Store

def empty (maxTombstones pruneBuffer : Nat) : Store :=
  ⟨0, Table.empty, Table.empty, 0, maxTombstones, pruneBuffer⟩

/-- Deletions before a snapshot are unknown, so its clock is the horizon. -/
def ofSnapshot (s : Snapshot) (maxTombstones pruneBuffer : Nat) : Store :=
  ⟨s.clock, Record.table s.records, Table.empty, s.clock, maxTombstones, pruneBuffer⟩

def snapshot (s : Store) : Snapshot := ⟨s.clock, s.records.values⟩

def get? (s : Store) (id : RecordId) : Option Record := s.records.get? id

def advance (s : Store) : Store := { s with clock := s.clock + 1 }

/-- Make one edit at a clock, noting the change. An upsert of the value that is already there and
the deletion of a record that is not there change nothing. -/
def write (clock : Nat) (state : Store × Changes) (entry : RecordId × Edit) : Store × Changes :=
  let (s, changes) := state
  match entry.2 with
  | .upsert typeName content =>
    let record : Record := ⟨entry.1, typeName, content, clock⟩
    if Changes.holdsValue s.records entry.1 record then (s, changes)
    else
      ({ s with
          records := s.records.insert entry.1 record
          tombstones := s.tombstones.erase entry.1 },
        changes.put record)
  | .delete =>
    if s.records.contains entry.1 then
      ({ s with
          records := s.records.erase entry.1
          tombstones := s.tombstones.insert entry.1 clock },
        changes.remove entry.1)
    else (s, changes)

def excess (s : Store) : Nat := s.tombstones.size - s.maxTombstones + s.pruneBuffer

def cutoff? (s : Store) : Option Nat :=
  let clocks := s.tombstones.values.mergeSort
  clocks[min s.excess clocks.length - 1]?

/-- Drop the oldest tombstones once there are too many. All tombstones of one clock go together,
and the horizon moves to the newest clock that lost one. -/
def prune (s : Store) : Store :=
  if s.tombstones.size ≤ s.maxTombstones then s
  else
    match s.cutoff? with
    | none => s
    | some cutoff =>
      { s with
        tombstones := s.tombstones.filter fun _ clock => cutoff < clock
        horizon := max s.horizon cutoff }

structure Outcome where
  clock : Nat
  changes : Changes
  rejected : List Rejection
deriving DecidableEq, Inhabited

/-- The last valid edit per id. Every write replaces a record as a whole, so only that one
counts. -/
def lastEdits (schema : Schema) (mutations : List Mutation) : Table Edit :=
  Table.ofList ((mutations.filter fun m => (schema.refusal? m).isNone).map fun m =>
    (m.recordId, m.edit))

def rejections (schema : Schema) (mutations : List Mutation) (records : Table Record) :
    List Rejection :=
  mutations.filterMap fun m =>
    (schema.refusal? m).map fun reason => ⟨m.recordId, reason, records.get? m.recordId⟩

/-- Make the valid mutations of a batch. A batch that changes anything moves the clock by one; one
that changes nothing leaves the store as it is. -/
def apply (s : Store) (schema : Schema) (mutations : List Mutation) : Store × Outcome :=
  let (written, changes) :=
    (lastEdits schema mutations).entries.foldl (write (s.clock + 1)) (s, Table.empty)
  let next := if changes.isEmpty then s else prune { written with clock := s.clock + 1 }
  (next, ⟨next.clock, changes, rejections schema mutations next.records⟩)

def canCatchUp (s : Store) (since : Nat) : Bool := s.horizon ≤ since && since ≤ s.clock

def changesSince (s : Store) (since : Nat) : Changes :=
  let written := s.records.values.filter fun record => since < record.stamp
  let gone := (s.tombstones.filter fun _ clock => since < clock).keys
  gone.foldl Changes.remove (written.foldl Changes.put Table.empty)

end Store

end RoomSync
