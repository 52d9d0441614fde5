import RoomSync.Change
import RoomSync.Proofs.Table

namespace RoomSync

open Table

namespace Record

theorem table_values {t : Table Record} (h : t.KeyedBy Record.id) : table t.values = t := by
  apply Table.ext
  intro key
  rw [table, get?_ofList, last?_values h]

theorem keyed_table (records : List Record) : (table records).KeyedBy id := by
  intro id record h
  rw [table, get?_ofList] at h
  obtain ⟨r, -, hr⟩ := List.mem_map.1 (Entries.mem_of_last? h)
  obtain ⟨hid, rfl⟩ := Prod.mk.inj hr
  exact hid

theorem table_append_values {t u : Table Record} (ht : t.KeyedBy Record.id)
    (hu : u.KeyedBy Record.id) : table (t.values ++ u.values) = t.union u := by
  apply Table.ext
  intro key
  rw [table, get?_ofList, List.map_append, Entries.last?_append, last?_values ht, last?_values hu,
    get?_union]

end Record

namespace Changes

theorem get?_applyOne (records : Table Record) (entry : RecordId × Change) (id : RecordId) :
    (applyOne records entry).get? id =
      if entry.1 = id then entry.2.result else records.get? id := by
  obtain ⟨key, change⟩ := entry
  cases change with
  | put record =>
    change (records.insert key record).get? id = _
    rw [get?_insert]
    by_cases h : id = key <;> simp [h, Change.result, eq_comm]
  | remove =>
    change (records.erase key).get? id = _
    rw [get?_erase]
    by_cases h : id = key <;> simp [h, Change.result, eq_comm]

theorem get?_foldl_applyOne (entries : List (RecordId × Change)) (records : Table Record)
    (id : RecordId) :
    (entries.foldl applyOne records).get? id =
      (Entries.last? id entries).elim (records.get? id) Change.result := by
  induction entries generalizing records with
  | nil => rfl
  | cons e rest ih =>
    rw [List.foldl_cons, ih, Entries.last?, get?_applyOne]
    cases Entries.last? id rest with
    | some change => rfl
    | none => by_cases h : e.1 = id <;> simp [h]

@[simp] theorem get?_applyTo (changes : Changes) (records : Table Record) (id : RecordId) :
    (changes.applyTo records).get? id =
      (changes.get? id).elim (records.get? id) Change.result := by
  rw [applyTo, get?_foldl_applyOne, last?_entries]

theorem applyTo_union (changes later : Changes) (records : Table Record) :
    applyTo (Table.union changes later) records = later.applyTo (changes.applyTo records) := by
  apply Table.ext
  intro id
  rw [get?_applyTo, get?_applyTo, get?_applyTo, get?_union]
  cases later.get? id <;> rfl

@[simp] theorem get?_put (changes : Changes) (record : Record) (id : RecordId) :
    (changes.put record).get? id = if id = record.id then some (.put record) else changes.get? id :=
  get?_insert ..

@[simp] theorem get?_remove (changes : Changes) (id l : RecordId) :
    (changes.remove id).get? l = if l = id then some .remove else changes.get? l :=
  get?_insert ..

theorem get?_foldl_put (records : List Record) (changes : Changes) (id : RecordId) :
    (records.foldl put changes).get? id =
      ((Entries.last? id (records.map fun r => (r.id, r))).map Change.put).or
        (changes.get? id) := by
  induction records generalizing changes with
  | nil => rfl
  | cons r rest ih =>
    rw [List.foldl_cons, ih, List.map_cons, Entries.last?, get?_put]
    cases Entries.last? id (rest.map fun r => (r.id, r)) with
    | some record => rfl
    | none => by_cases h : id = r.id <;> simp [h, eq_comm]

theorem get?_foldl_put_values {records : Table Record} (h : records.KeyedBy Record.id)
    (changes : Changes) (id : RecordId) :
    (records.values.foldl put changes).get? id =
      ((records.get? id).map Change.put).or (changes.get? id) := by
  rw [get?_foldl_put, last?_values h]

theorem get?_foldl_remove (ids : List RecordId) (changes : Changes) (id : RecordId) :
    (ids.foldl remove changes).get? id =
      if id ∈ ids then some .remove else changes.get? id := by
  induction ids generalizing changes with
  | nil => rfl
  | cons i rest ih =>
    rw [List.foldl_cons, ih, get?_remove]
    by_cases h : id ∈ rest
    · simp [h]
    · by_cases hi : id = i <;> simp [h, hi]

theorem holdsValue_self {records : Table Record} {id : RecordId} {record : Record}
    (h : records.get? id = some record) : holdsValue records id record = true := by
  simp [holdsValue, h, Record.sameValue, Content.same_refl]

theorem get?_between {before after : Table Record} (h : after.KeyedBy Record.id) (id : RecordId) :
    (between before after).get? id =
      match after.get? id with
      | some record => if holdsValue before id record then none else some (.put record)
      | none => if before.contains id then some .remove else none := by
  let written := after.filter fun key record => !holdsValue before key record
  have hfold : (after.entries.filter fun entry => !holdsValue before entry.1 entry.2).foldl
      (fun changes entry => put changes entry.2) Table.empty =
        written.values.foldl put Table.empty := by
    rw [values, List.foldl_map]
    rfl
  have hkeyed : written.KeyedBy Record.id := fun key record hr => by
    rw [get?_filter] at hr
    exact h key record (Option.eq_some_of_filter_eq_some hr)
  have hgone : id ∈ before.keys.filter (fun key => !after.contains key) ↔
      before.contains id = true ∧ after.get? id = none := by
    rw [List.mem_filter, mem_keys, contains_iff, contains, Bool.not_eq_true',
      Option.isSome_eq_false_iff, Option.isNone_iff_eq_none]
  rw [between, get?_foldl_remove, hfold, get?_foldl_put_values hkeyed, get?_filter, get?_empty,
    Option.or_none]
  cases ha : after.get? id with
  | none => simp only [hgone, ha, and_true, Option.filter_none, Option.map_none]
  | some record =>
    rw [if_neg fun hid => Option.some_ne_none record (ha.symm.trans (hgone.1 hid).2)]
    by_cases hv : holdsValue before id record <;> simp [Option.filter, hv]

end Changes

end RoomSync
