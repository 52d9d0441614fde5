import RoomSync.Proofs.Changes
import RoomSync.Proofs.Draft.PendingWrites

namespace RoomSync

open Table

def Changes.Shows (changes : Changes) (id : RecordId) : Prop :=
  ∃ record, changes.get? id = some (.put record)

def Hydration.Shows (id : RecordId) : Hydration → Prop
  | .full records => ∃ record ∈ records, record.id = id
  | .incremental patch => patch.changes.Shows id

def PushResult.Shows (id : RecordId) (result : PushResult) : Prop :=
  ∃ rejection ∈ result.rejected, rejection.recordId = id ∧ rejection.current ≠ none

/-- Nothing is shown under an id, except in results that are excused. -/
def DataMessage.Veils (excused : RecordId → PushResult → Prop) (own : RecordId) :
    DataMessage → Prop
  | .patch p => ¬p.changes.Shows own
  | .pushResult result => result.Shows own → excused own result

def ServerMessage.Veils (excused : RecordId → PushResult → Prop) (own? : Option RecordId) :
    ServerMessage → Prop
  | .connected accepted => ∃ own, own? = some own ∧ ¬accepted.hydration.Shows own
  | .data batch => ∀ msg ∈ batch, ∃ own, own? = some own ∧ msg.Veils excused own
  | .rejectConnect _ | .pong | .error _ => True

variable {excused : RecordId → PushResult → Prop} {own : RecordId}

theorem Changes.shows_union {changes later : Changes} {id : RecordId}
    (h : Changes.Shows (Table.union changes later) id) : changes.Shows id ∨ later.Shows id := by
  obtain ⟨record, hr⟩ := h
  rw [get?_union] at hr
  cases hl : later.get? id with
  | some change =>
    rw [hl] at hr
    exact .inr ⟨record, hl.trans hr⟩
  | none =>
    rw [hl] at hr
    exact .inl ⟨record, hr⟩

theorem DataMessage.veils_absorb (p q : Patch) (hp : (DataMessage.patch p).Veils excused own)
    (hq : (DataMessage.patch q).Veils excused own) :
    (DataMessage.patch (p.absorb q)).Veils excused own := by
  intro h
  obtain h | h := Changes.shows_union h
  · exact hp h
  · exact hq h

theorem ServerMessage.Veils.of_none {msg : ServerMessage} (h : msg.Veils excused none)
    (own? : Option RecordId) : msg.Veils excused own? := by
  cases msg with
  | connected accepted =>
    obtain ⟨_, he, -⟩ := h
    cases he
  | data batch =>
    intro content hc
    obtain ⟨_, he, -⟩ := h content hc
    cases he
  | rejectConnect _ | pong | error _ => trivial

theorem Changes.get?_applyTo_of_not_shows {changes : Changes} {id : RecordId}
    (hc : ¬changes.Shows id) {records : Table Record} (hr : records.get? id = none) :
    (changes.applyTo records).get? id = none := by
  rw [get?_applyTo]
  cases he : changes.get? id with
  | none => exact hr
  | some change =>
    cases change with
    | put record => exact absurd ⟨record, he⟩ hc
    | remove => rfl

theorem Replica.values_eq_none_iff {replica : Replica} {id : RecordId} :
    replica.values.get? id = none ↔ replica.get? id = none := by
  rw [get?_values, Option.map_eq_none_iff, Replica.get?]

/-- A working copy with no record under an id and no unsettled push for it. -/
structure Draft.Lacks (d : Draft) (id : RecordId) : Prop where
  replica : d.replica.get? id = none
  pending : ∀ p ∈ d.pending, ∀ m ∈ p.mutations, m.recordId ≠ id

/-- A new client has no record under any id. -/
example (key : String) (id : RecordId) : (Draft.start key).Lacks id := ⟨rfl, nofun⟩

namespace Draft.Lacks

variable {d : Draft} {id : RecordId} (h : d.Lacks id)
include h

theorem rebase {replica : Replica} (hr : replica.get? id = none) : (d.rebase replica).Lacks id := by
  refine ⟨Replica.values_eq_none_iff.1 ?_, h.pending⟩
  have hnone : d.lastPending? id = none := lastEdit?_eq_none_iff.2 fun m hm => by
    obtain ⟨p, hp, hm⟩ := List.mem_flatMap.1 hm
    exact h.pending p hp m hm
  rw [get?_values_rebase, hnone]
  exact Replica.values_eq_none_iff.2 hr

theorem push {mutations : List Mutation} (hm : ∀ m ∈ mutations, m.recordId ≠ id) :
    (d.push mutations).1.Lacks id := by
  refine ⟨Replica.values_eq_none_iff.1 ?_, List.forall_mem_append.2 ⟨h.pending, fun p hp => ?_⟩⟩
  · rw [get?_values_push, lastEdit?_eq_none_iff.2 hm]
    exact Replica.values_eq_none_iff.2 h.replica
  · obtain rfl := List.mem_singleton.1 hp
    exact hm

theorem settle {result : PushResult} (hr : ¬result.Shows id) : (d.settle result).1.Lacks id := by
  refine ⟨Replica.values_eq_none_iff.1 ?_, fun p hp => h.pending p (List.mem_filter.1 hp).1⟩
  rw [get?_values_settle]
  cases hlast : Entries.last? id result.restores with
  | none => exact Replica.values_eq_none_iff.2 h.replica
  | some current =>
    obtain ⟨rejection, hmem, he⟩ := List.mem_map.1 (Entries.mem_of_last? hlast)
    obtain ⟨hid, rfl⟩ := Prod.mk.inj he
    have hcurrent : rejection.current = none :=
      Decidable.byContradiction fun hne => hr ⟨rejection, hmem, hid, hne⟩
    rw [hcurrent]
    rfl

theorem foldData {msg : DataMessage} (hm : msg.Veils (fun _ _ => False) id) :
    (d.foldData msg).1.Lacks id := by
  cases msg with
  | pushResult result => exact h.settle hm
  | patch p =>
    by_cases hmade : p.fromClock ≤ d.replica.clock ∧ d.replica.clock < p.toClock
    · rw [foldData_patch hmade.1 hmade.2]
      exact h.rebase (Changes.get?_applyTo_of_not_shows hm h.replica)
    · rw [foldData_patch_dropped hmade]
      exact h

theorem foldBatch {batch : List DataMessage}
    (hm : ∀ msg ∈ batch, msg.Veils (fun _ _ => False) id) : (d.foldBatch batch).1.Lacks id := by
  induction batch generalizing d with
  | nil => exact h
  | cons msg rest ih =>
    obtain ⟨hmsg, hrest⟩ := List.forall_mem_cons.1 hm
    exact ih (h.foldData hmsg) hrest

theorem catchUp {p : Patch} (hp : ¬p.changes.Shows id) :
    ((d.replica.catchUp p).toOption.getD d.replica).get? id = none := by
  rw [Replica.catchUp]
  split
  · exact h.replica
  · refine Changes.get?_applyTo_of_not_shows hp ?_
    rw [get?_filter]
    exact Option.filter_eq_none_iff.2 fun record hr => absurd (h.replica.symm.trans hr) nofun

theorem hydrate {accepted : Accepted} (ha : ¬accepted.hydration.Shows id) :
    (d.hydrate accepted).Lacks id := by
  have hd : ({ d with synced := true } : Draft).Lacks id := ⟨h.replica, h.pending⟩
  refine hd.rebase ?_
  cases he : accepted.hydration with
  | full records =>
    rw [he] at ha
    change (Record.table records).get? id = none
    rw [Record.table, get?_ofList, Entries.last?_eq_none_iff]
    intro e hmem hid
    obtain ⟨record, hr, rfl⟩ := List.mem_map.1 hmem
    exact ha ⟨record, hr, hid⟩
  | incremental p =>
    rw [he] at ha
    exact h.catchUp ha

theorem fold {msg : ServerMessage} (hm : msg.Veils (fun _ _ => False) (some id)) :
    (d.fold msg).draft.Lacks id := by
  cases msg with
  | connected accepted =>
    obtain ⟨_, ho, ha⟩ := hm
    obtain rfl := Option.some.inj ho
    exact h.hydrate ha
  | data batch =>
    refine h.foldBatch fun content hc => ?_
    obtain ⟨_, ho, hv⟩ := hm content hc
    obtain rfl := Option.some.inj ho
    exact hv
  | rejectConnect _ | pong | error _ => exact h

theorem takeAll {inputs : List Input}
    (hpush : ∀ mutations, .push mutations ∈ inputs → ∀ m ∈ mutations, m.recordId ≠ id)
    (hreceive : ∀ msg, .receive msg ∈ inputs → msg.Veils (fun _ _ => False) (some id)) :
    (d.takeAll inputs).Lacks id := by
  induction inputs generalizing d with
  | nil => exact h
  | cons input rest ih =>
    have hd : (d.take input).Lacks id := by
      cases input with
      | push mutations => exact h.push (hpush mutations List.mem_cons_self)
      | presence => exact ⟨h.replica, h.pending⟩
      | receive msg => exact h.fold (hreceive msg List.mem_cons_self)
    exact ih hd (fun ms hm => hpush ms (List.mem_cons_of_mem _ hm))
      fun msg hm => hreceive msg (List.mem_cons_of_mem _ hm)

end Draft.Lacks

end RoomSync
