import Mathlib.Data.List.Forall2
import RoomSync.Proofs.Store.Run

namespace RoomSync.Store

open Table

def makeOne (schema : Schema) (values : Table (String × Content)) (m : Mutation) :
    Table (String × Content) :=
  match m.edit with
  | .upsert typeName content =>
    match schema.checkDocument m.recordId typeName content with
    | .ok () => values.insert m.recordId (typeName, content)
    | .error _ => values
  | .delete => values.erase m.recordId

def makeAll (schema : Schema) (values : Table (String × Content)) (mutations : List Mutation) :
    Table (String × Content) :=
  mutations.foldl (makeOne schema) values

def values (s : Store) : Table (String × Content) := s.records.map Record.value

theorem refusal?_eq_some_iff {schema : Schema} {m : Mutation} {reason : Refusal} :
    schema.refusal? m = some reason ↔ ∃ typeName content, m.edit = .upsert typeName content ∧
      schema.checkDocument m.recordId typeName content = .error reason := by
  obtain ⟨id, edit⟩ := m
  cases edit with
  | delete => simp [Schema.refusal?]
  | upsert typeName content =>
    cases hc : schema.checkDocument id typeName content <;> simp [Schema.refusal?, hc]

theorem get?_makeOne (schema : Schema) (values : Table (String × Content)) (m : Mutation)
    (id : RecordId) :
    (makeOne schema values m).get? id =
      if m.recordId = id ∧ schema.refusal? m = none then m.edit.value else values.get? id := by
  obtain ⟨key, edit⟩ := m
  cases edit with
  | delete =>
    simp only [makeOne, Schema.refusal?, get?_erase, Edit.value, and_true, eq_comm]
  | upsert typeName content =>
    cases hc : schema.checkDocument key typeName content with
    | error reason => simp [makeOne, Schema.refusal?, hc]
    | ok _ => simp [makeOne, Schema.refusal?, hc, get?_insert, Edit.value, eq_comm]

theorem get?_makeAll (schema : Schema) (values : Table (String × Content))
    (mutations : List Mutation) (id : RecordId) :
    (makeAll schema values mutations).get? id =
      ((lastEdits schema mutations).get? id).elim (values.get? id) Edit.value := by
  rw [get?_lastEdits]
  unfold makeAll
  induction mutations generalizing values with
  | nil => rfl
  | cons m rest ih =>
    rw [List.foldl_cons, ih, get?_makeOne, List.filter_cons]
    cases hm : schema.refusal? m with
    | some reason => simp
    | none =>
      rw [Option.isNone_none, if_pos rfl, lastEdit?_cons]
      cases lastEdit? (rest.filter fun m => (schema.refusal? m).isNone) id with
      | some e => rfl
      | none => by_cases hid : m.recordId = id <;> simp [hid]

/-- What comes of a batch, in terms of its mutations and of the records before and after it. -/
structure NetsOut (s : Store) (schema : Schema) (mutations : List Mutation)
    (result : Store × Outcome) : Prop where
  values : ∀ id, Agrees ((makeAll schema s.values mutations).get? id) (result.1.records.get? id)
  between : result.2.changes = Changes.between s.records result.1.records
  changed : ∀ id, result.2.changes.get? id = none ↔
    Agrees ((result.1.records.get? id).map Record.value) (s.records.get? id)
  stamped : ∀ id record, result.2.changes.get? id = some (.put record) →
    record.stamp = result.2.clock
  untouched : ∀ id, result.2.changes.get? id = none →
    result.1.records.get? id = s.records.get? id
  clock : result.2.clock = result.1.clock
  moves : result.2.changes ≠ Table.empty → result.1.clock = s.clock + 1
  rests : result.2.changes = Table.empty → result.1 = s
  rejected : List.Forall₂ (fun m rejection => rejection.recordId = m.recordId ∧
      (∃ typeName content, m.edit = .upsert typeName content ∧
        schema.checkDocument m.recordId typeName content = .error rejection.reason) ∧
      rejection.current = result.1.get? m.recordId)
    (mutations.filter fun m => (schema.refusal? m).isSome) result.2.rejected

variable (s : Store) (schema : Schema) (mutations : List Mutation)

theorem apply_effective {id : RecordId} {change : Change}
    (h : (s.apply schema mutations).2.changes.get? id = some change) :
    match change with
    | .put record => Changes.holdsValue s.records id record = false
    | .remove => s.records.contains id = true := by
  rw [apply_changes] at h
  obtain ⟨e, -, he⟩ := Option.bind_eq_some_iff.1 h
  cases e with
  | upsert typeName content =>
    simp only [effect?] at he
    split at he
    · cases he
    · rename_i hv
      obtain rfl := Option.some.inj he
      exact Bool.eq_false_iff.2 hv
  | delete =>
    simp only [effect?] at he
    split at he
    · rename_i hc
      obtain rfl := Option.some.inj he
      exact hc
    · cases he

theorem apply_between (h : s.records.KeyedBy Record.id) :
    (s.apply schema mutations).2.changes =
      Changes.between s.records (s.apply schema mutations).1.records := by
  apply Table.ext
  intro id
  have heffective := @apply_effective s schema mutations id
  rw [Changes.get?_between (s.apply_keyed schema mutations h), apply_records]
  rcases hc : (s.apply schema mutations).2.changes.get? id with _ | record | _
  · cases hr : s.records.get? id with
    | none => simp [contains, hr]
    | some record => simp [Changes.holdsValue_self hr]
  · simp [Change.result, heffective hc]
  · simp [Change.result, heffective hc]

theorem apply_changed (id : RecordId) :
    (s.apply schema mutations).2.changes.get? id = none ↔
      Agrees (((s.apply schema mutations).1.records.get? id).map Record.value)
        (s.records.get? id) := by
  rw [apply_records]
  have heffective := @apply_effective s schema mutations id
  rcases hc : (s.apply schema mutations).2.changes.get? id with _ | record | _
  · simpa using agrees_refl (s.records.get? id)
  · have hv : Changes.holdsValue s.records id record = false := heffective hc
    cases hr : s.records.get? id with
    | none => simp [Change.result, Agrees]
    | some old =>
      rw [Changes.holdsValue, hr] at hv
      simpa [Change.result, Agrees, Record.value] using hv
  · obtain ⟨old, hr⟩ := contains_iff.1 (heffective hc)
    simp [hr, Change.result, Agrees]

theorem apply_values (id : RecordId) :
    Agrees ((makeAll schema s.values mutations).get? id)
      ((s.apply schema mutations).1.records.get? id) := by
  rw [get?_makeAll, apply_records, apply_changes]
  cases (lastEdits schema mutations).get? id with
  | none =>
    rw [values, get?_map]
    exact agrees_refl _
  | some e => exact agrees_effect s.records (s.clock + 1) id e

theorem rejections_forall₂ (records : Table Record) :
    List.Forall₂ (fun m rejection => rejection.recordId = m.recordId ∧
        schema.refusal? m = some rejection.reason ∧
        rejection.current = records.get? m.recordId)
      (mutations.filter fun m => (schema.refusal? m).isSome)
      (rejections schema mutations records) := by
  induction mutations with
  | nil => exact .nil
  | cons m rest ih =>
    rw [rejections, List.filterMap_cons, List.filter_cons]
    cases hm : schema.refusal? m with
    | none => exact ih
    | some reason => exact .cons ⟨rfl, hm, rfl⟩ ih

theorem netsOut_of_keyed (h : s.records.KeyedBy Record.id) :
    NetsOut s schema mutations (s.apply schema mutations) where
  values := s.apply_values schema mutations
  between := s.apply_between schema mutations h
  changed := s.apply_changed schema mutations
  stamped id record hc := by
    have hne : (s.apply schema mutations).2.changes ≠ Table.empty := fun he => by
      rw [he] at hc
      cases hc
    exact ((s.follows_apply schema mutations hne).stamped id record hc).2
  untouched id hc := by rw [apply_records, hc, Option.elim_none]
  clock := rfl
  moves hc := (s.follows_apply schema mutations hc).clock
  rests := s.apply_of_empty schema mutations
  rejected := (rejections_forall₂ schema mutations _).imp fun _ _ ⟨hid, hreason, hcurrent⟩ =>
    ⟨hid, refusal?_eq_some_iff.1 hreason, hcurrent⟩

/-- Whatever a store was restored from and whatever was done to it, a batch does what its mutations
do one at a time. -/
theorem apply_netsOut (snapshot : Snapshot) (maxTombstones pruneBuffer : Nat)
    (operations : List Operation) (schema : Schema) (mutations : List Mutation) :
    let s := (ofSnapshot snapshot maxTombstones pruneBuffer).run operations
    NetsOut s schema mutations (s.apply schema mutations) :=
  netsOut_of_keyed _ schema mutations
    (run_keeps (P := fun s => s.records.KeyedBy Record.id) (fun _ _ _ hf => hf.keyed)
      (Record.keyed_table snapshot.records) operations)

/-- An empty store is one that is restored from nothing. -/
example (maxTombstones pruneBuffer : Nat) :
    empty maxTombstones pruneBuffer = ofSnapshot ⟨0, []⟩ maxTombstones pruneBuffer := rfl

/-- One note is changed and changed back, one is deleted and written anew, one comes and goes, and one
is written before a refused write. -/
example :
    let schema := (Schema.base 1).withType (.document "note")
    let write : RecordId → Int → Mutation := fun id n =>
      ⟨id, .upsert "note" (.object [("n", .int n)])⟩
    let refused : Mutation := ⟨"d", .upsert "note" .null⟩
    let start := (Store.empty 9 9).run [.apply schema [write "a" 1, write "b" 1]]
    let made : Record := ⟨"d", "note", .object [("n", .int 1)], 2⟩
    (start.apply schema [write "a" 2, write "a" 1, ⟨"b", .delete⟩, write "b" 1, write "c" 1,
      ⟨"c", .delete⟩, write "d" 1, refused]).2 =
        ⟨2, Changes.put Table.empty made, [⟨"d", .notAnObject, some made⟩]⟩ := by
  decide +kernel

end RoomSync.Store
