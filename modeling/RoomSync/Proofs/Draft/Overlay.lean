import RoomSync.Draft
import RoomSync.Proofs.Edits

namespace RoomSync

open Table

namespace Replica

theorem get?_values (r : Replica) (id : RecordId) :
    r.values.get? id = (r.records.get? id).map Record.value :=
  get?_map ..

theorem get?_values_editOne (r : Replica) (m : Mutation) (id : RecordId) :
    (r.editOne m).values.get? id = if m.recordId = id then m.edit.value else r.values.get? id := by
  simp only [get?_values, editOne]
  cases m.edit with
  | upsert typeName content =>
    rw [get?_insert]
    by_cases h : id = m.recordId <;> simp [h, Edit.value, Record.value, eq_comm]
  | delete =>
    rw [get?_erase]
    by_cases h : id = m.recordId <;> simp [h, Edit.value, eq_comm]

@[simp] theorem clock_editOne (r : Replica) (m : Mutation) : (r.editOne m).clock = r.clock := by
  unfold editOne
  cases m.edit <;> rfl

theorem get?_values_applyLocal (r : Replica) (mutations : List Mutation) (id : RecordId) :
    (r.applyLocal mutations).values.get? id =
      (lastEdit? mutations id).elim (r.values.get? id) Edit.value := by
  unfold applyLocal
  induction mutations generalizing r with
  | nil => rfl
  | cons m rest ih =>
    rw [List.foldl_cons, ih, lastEdit?_cons, get?_values_editOne]
    cases lastEdit? rest id with
    | some e => rfl
    | none => by_cases h : m.recordId = id <;> simp [h]

@[simp] theorem clock_applyLocal (r : Replica) (mutations : List Mutation) :
    (r.applyLocal mutations).clock = r.clock := by
  unfold applyLocal
  induction mutations generalizing r with
  | nil => rfl
  | cons m rest ih => rw [List.foldl_cons, ih, clock_editOne]

theorem get?_restamp (clock : Nat) (records : Table Record) (id l : RecordId) :
    (restamp clock records id).get? l =
      if l = id then (records.get? l).map fun r => { r with stamp := clock }
      else records.get? l :=
  get?_modify ..

theorem values_restamp (clock : Nat) (ids : List RecordId) (records : Table Record)
    (id : RecordId) :
    ((ids.foldl (restamp clock) records).get? id).map Record.value =
      (records.get? id).map Record.value := by
  induction ids generalizing records with
  | nil => rfl
  | cons i rest ih =>
    rw [List.foldl_cons, ih, get?_restamp]
    by_cases h : id = i
    · rw [if_pos h, Option.map_map]
      rfl
    · rw [if_neg h]

theorem get?_restore (records : Table Record) (entry : RecordId × Option Record) (id : RecordId) :
    (restore records entry).get? id = if entry.1 = id then entry.2 else records.get? id := by
  obtain ⟨key, current⟩ := entry
  cases current with
  | some record =>
    change (records.insert key record).get? id = _
    rw [get?_insert]
    by_cases h : id = key <;> simp [h, eq_comm]
  | none =>
    change (records.erase key).get? id = _
    rw [get?_erase]
    by_cases h : id = key <;> simp [h, eq_comm]

theorem get?_foldl_restore (entries : List (RecordId × Option Record)) (records : Table Record)
    (id : RecordId) :
    (entries.foldl restore records).get? id = (Entries.last? id entries).getD (records.get? id) := by
  induction entries generalizing records with
  | nil => rfl
  | cons e rest ih =>
    rw [List.foldl_cons, ih, Entries.last?, get?_restore]
    cases Entries.last? id rest with
    | some current => rfl
    | none => by_cases h : e.1 = id <;> simp [h]

theorem get?_values_commitLocal (r : Replica) (clock : Nat) (accepted : List RecordId)
    (restored : List (RecordId × Option Record)) (id : RecordId) :
    (r.commitLocal clock accepted restored).values.get? id =
      (Entries.last? id restored).elim (r.values.get? id) (Option.map Record.value) := by
  rw [get?_values, get?_values, commitLocal, get?_foldl_restore]
  cases Entries.last? id restored with
  | some current => rfl
  | none => exact values_restamp ..

end Replica

def PushResult.restores (result : PushResult) : List (RecordId × Option Record) :=
  result.rejected.map fun r => (r.recordId, r.current)

namespace Draft

theorem overlay_eq_applyLocal (pending : List PendingPush) (replica : Replica) :
    overlay pending replica = replica.applyLocal (pending.flatMap PendingPush.mutations) := by
  unfold overlay
  induction pending generalizing replica with
  | nil => rfl
  | cons p rest ih =>
    rw [List.foldl_cons, ih, List.flatMap_cons, Replica.applyLocal, Replica.applyLocal,
      Replica.applyLocal, List.foldl_append]

/-- The last edit of the unsettled pushes on an id, in the order of the pushes. -/
def lastPending? (d : Draft) (id : RecordId) : Option Edit :=
  lastEdit? (d.pending.flatMap PendingPush.mutations) id

theorem get?_values_rebase (d : Draft) (replica : Replica) (id : RecordId) :
    (d.rebase replica).replica.values.get? id =
      (d.lastPending? id).elim (replica.values.get? id) Edit.value := by
  rw [rebase, overlay_eq_applyLocal, Replica.get?_values_applyLocal]
  rfl

@[simp] theorem clock_rebase (d : Draft) (replica : Replica) :
    (d.rebase replica).replica.clock = replica.clock := by
  rw [rebase, overlay_eq_applyLocal, Replica.clock_applyLocal]

theorem lastPending?_push (d : Draft) (mutations : List Mutation) (id : RecordId) :
    (d.push mutations).1.lastPending? id =
      (lastEdit? mutations id).or (d.lastPending? id) := by
  rw [lastPending?, lastPending?, ← lastEdit?_append]
  simp [push, allot]

theorem get?_values_push (d : Draft) (mutations : List Mutation) (id : RecordId) :
    (d.push mutations).1.replica.values.get? id =
      (lastEdit? mutations id).elim (d.replica.values.get? id) Edit.value :=
  Replica.get?_values_applyLocal ..

theorem get?_values_settle (d : Draft) (result : PushResult) (id : RecordId) :
    (d.settle result).1.replica.values.get? id =
      (Entries.last? id result.restores).elim (d.replica.values.get? id)
        (Option.map Record.value) :=
  Replica.get?_values_commitLocal ..

/-- Unsettled pushes have ascending numbers, all of them allotted already. -/
structure Numbered (d : Draft) : Prop where
  ascending : d.pending.Pairwise fun p q => p.pushId < q.pushId
  allotted : ∀ p ∈ d.pending, p.pushId < d.nextPushId

theorem numbered_start (key : String) : (start key).Numbered := ⟨.nil, nofun⟩

theorem Numbered.eq_of_pushId {d : Draft} (h : d.Numbered) {p q : PendingPush}
    (hp : p ∈ d.pending) (hq : q ∈ d.pending) (he : p.pushId = q.pushId) : p = q := by
  obtain ⟨i, hi, rfl⟩ := List.getElem_of_mem hp
  obtain ⟨j, hj, rfl⟩ := List.getElem_of_mem hq
  obtain hlt | rfl | hlt := Nat.lt_trichotomy i j
  · exact absurd he (Nat.ne_of_lt (List.pairwise_iff_getElem.1 h.ascending i j hi hj hlt))
  · rfl
  · exact absurd he (Nat.ne_of_gt (List.pairwise_iff_getElem.1 h.ascending j i hj hi hlt))

theorem Numbered.allot {d : Draft} (h : d.Numbered) : d.allot.1.Numbered :=
  ⟨h.ascending, fun p hp => Nat.lt_succ_of_lt (h.allotted p hp)⟩

theorem Numbered.push {d : Draft} (h : d.Numbered) (mutations : List Mutation) :
    (d.push mutations).1.Numbered := by
  refine ⟨List.pairwise_append.2 ⟨h.ascending, List.pairwise_singleton .., ?_⟩, fun p hp => ?_⟩
  · intro p hp q hq
    obtain rfl := List.mem_singleton.1 hq
    exact h.allotted p hp
  · obtain hp | hp := List.mem_append.1 hp
    · exact Nat.lt_succ_of_lt (h.allotted p hp)
    · obtain rfl := List.mem_singleton.1 hp
      exact Nat.lt_succ_self _

theorem Numbered.settle {d : Draft} (h : d.Numbered) (result : PushResult) :
    (d.settle result).1.Numbered :=
  ⟨h.ascending.filter _, fun p hp => h.allotted p (List.mem_filter.1 hp).1⟩

theorem Numbered.rebase {d : Draft} (h : d.Numbered) (replica : Replica) :
    (d.rebase replica).Numbered := ⟨h.ascending, h.allotted⟩

theorem foldData_patch {d : Draft} {patch : Patch} (hfrom : patch.fromClock ≤ d.replica.clock)
    (hto : d.replica.clock < patch.toClock) :
    d.foldData (.patch patch) =
      (d.rebase ⟨patch.toClock, patch.changes.applyTo d.replica.records⟩,
        some (.remoteChanges patch.toClock patch.changes.size)) := by
  simp only [foldData, Replica.applyPatch, if_neg (Nat.not_le.2 hto), if_neg (Nat.not_lt.2 hfrom)]

theorem foldData_patch_dropped {d : Draft} {patch : Patch}
    (h : ¬(patch.fromClock ≤ d.replica.clock ∧ d.replica.clock < patch.toClock)) :
    d.foldData (.patch patch) = (d, none) := by
  by_cases hto : d.replica.clock < patch.toClock
  · have hfrom : ¬patch.fromClock ≤ d.replica.clock := fun hfrom => h ⟨hfrom, hto⟩
    simp only [foldData, Replica.applyPatch, if_neg (Nat.not_le.2 hto),
      if_pos (Nat.lt_of_not_le hfrom)]
  · simp only [foldData, Replica.applyPatch, if_pos (Nat.le_of_not_lt hto)]

theorem foldData_patch_cases (d : Draft) (patch : Patch) :
    d.foldData (.patch patch) = (d, none) ∨
      ∃ replica event, d.foldData (.patch patch) = (d.rebase replica, some event) := by
  by_cases h : patch.fromClock ≤ d.replica.clock ∧ d.replica.clock < patch.toClock
  · exact .inr ⟨_, _, foldData_patch h.1 h.2⟩
  · exact .inl (foldData_patch_dropped h)

theorem Numbered.foldData {d : Draft} (h : d.Numbered) (msg : DataMessage) :
    (d.foldData msg).1.Numbered := by
  cases msg with
  | patch patch =>
    obtain he | ⟨replica, event, he⟩ := foldData_patch_cases d patch
    · rw [he]
      exact h
    · rw [he]
      exact h.rebase replica
  | pushResult result => exact h.settle result

/-- What no message takes away from a working copy. -/
structure Keeps (d d' : Draft) : Prop where
  sessionKey : d'.sessionKey = d.sessionKey
  synced : d.synced = true → d'.synced = true
  numbered : d.Numbered → d'.Numbered

theorem Keeps.refl (d : Draft) : d.Keeps d := ⟨rfl, id, id⟩

theorem Keeps.trans {d d' d'' : Draft} (h : d.Keeps d') (h' : d'.Keeps d'') : d.Keeps d'' :=
  ⟨h'.sessionKey.trans h.sessionKey, h'.synced ∘ h.synced, h'.numbered ∘ h.numbered⟩

theorem keeps_foldData (d : Draft) (msg : DataMessage) : d.Keeps (d.foldData msg).1 := by
  have hn : d.Numbered → (d.foldData msg).1.Numbered := fun h => h.foldData msg
  cases msg with
  | pushResult result => exact ⟨rfl, id, hn⟩
  | patch patch =>
    obtain he | ⟨replica, event, he⟩ := foldData_patch_cases d patch
    · rw [he]
      exact .refl d
    · rw [he] at hn ⊢
      exact ⟨rfl, id, hn⟩

theorem keeps_foldBatch (d : Draft) (batch : List DataMessage) : d.Keeps (d.foldBatch batch).1 := by
  induction batch generalizing d with
  | nil => exact .refl d
  | cons msg rest ih => exact (d.keeps_foldData msg).trans (ih _)

theorem keeps_fold (d : Draft) (msg : ServerMessage) : d.Keeps (d.fold msg).draft := by
  cases msg with
  | connected accepted => exact ⟨rfl, fun _ => rfl, fun h => ⟨h.ascending, h.allotted⟩⟩
  | data batch => exact d.keeps_foldBatch batch
  | rejectConnect reason => exact .refl d
  | pong => exact .refl d
  | error message => exact .refl d

theorem pending_settle {d : Draft} (h : d.Numbered) {result : PushResult}
    (horder : ∀ p ∈ d.pending, result.pushId ≤ p.pushId) :
    (∃ p, d.pending = p :: (d.settle result).1.pending ∧ p.pushId = result.pushId) ∨
      (d.settle result).1.pending = d.pending := by
  have hs : (d.settle result).1.pending = d.pending.filter fun p => p.pushId ≠ result.pushId := rfl
  rw [hs]
  cases hd : d.pending with
  | nil => exact .inr rfl
  | cons p rest =>
    have hc := List.pairwise_cons.1 (hd ▸ h.ascending)
    have hp := horder p (hd ▸ List.mem_cons_self)
    have hrest : rest.filter (fun q => q.pushId ≠ result.pushId) = rest := by
      refine List.filter_eq_self.2 fun q hq => ?_
      have := hc.1 q hq
      simp only [ne_eq, decide_not, Bool.not_eq_true', decide_eq_false_iff_not]
      omega
    by_cases he : p.pushId = result.pushId
    · exact .inl ⟨p, by simp only [List.filter_cons, he, ne_eq, not_true_eq_false, decide_false,
        Bool.false_eq_true, ↓reduceIte, hrest], he⟩
    · exact .inr (by simp only [List.filter_cons, he, ne_eq, not_false_eq_true, decide_true,
        ↓reduceIte, hrest])

theorem lastPending?_settle {d : Draft} (h : d.Numbered) {result : PushResult}
    (horder : ∀ p ∈ d.pending, result.pushId ≤ p.pushId) {id : RecordId} {e : Edit}
    (he : (d.settle result).1.lastPending? id = some e) : d.lastPending? id = some e := by
  unfold lastPending? at he ⊢
  obtain ⟨p, hp, -⟩ | hp := pending_settle h horder
  · rw [hp, List.flatMap_cons, lastEdit?_append, he, Option.some_or]
  · rwa [← hp]

end Draft

end RoomSync
