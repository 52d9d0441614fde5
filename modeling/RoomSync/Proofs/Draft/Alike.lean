import RoomSync.Proofs.Changes
import RoomSync.Proofs.Draft.Settlement

namespace RoomSync

open Table

namespace Draft

def unsettled (d : Draft) : List PendingPush := d.pending.filter fun p => p.mutations ≠ []

/-- The same clock and the same values, now and after whatever comes. -/
structure Alike (d d' : Draft) : Prop where
  clock : d'.replica.clock = d.replica.clock
  values : d'.replica.values = d.replica.values
  unsettled : d'.unsettled = d.unsettled
  nextPushId : d'.nextPushId = d.nextPushId

theorem Alike.refl (d : Draft) : d.Alike d := ⟨rfl, rfl, rfl, rfl⟩

theorem Alike.symm {d d' : Draft} (h : d.Alike d') : d'.Alike d :=
  ⟨h.clock.symm, h.values.symm, h.unsettled.symm, h.nextPushId.symm⟩

theorem Alike.trans {d d' d'' : Draft} (h : d.Alike d') (h' : d'.Alike d'') : d.Alike d'' :=
  ⟨h'.clock.trans h.clock, h'.values.trans h.values, h'.unsettled.trans h.unsettled,
    h'.nextPushId.trans h.nextPushId⟩

theorem lastPending?_eq_unsettled (d : Draft) (id : RecordId) :
    d.lastPending? id = lastEdit? (d.unsettled.flatMap PendingPush.mutations) id := by
  rw [lastPending?, unsettled]
  congr 1
  induction d.pending with
  | nil => rfl
  | cons p rest ih =>
    rw [List.flatMap_cons, List.filter_cons, ih]
    by_cases h : p.mutations = []
    · simp [h]
    · simp [h]

theorem unsettled_settle (d : Draft) (result : PushResult) :
    (d.settle result).1.unsettled = d.unsettled.filter fun p => p.pushId ≠ result.pushId := by
  rw [unsettled, unsettled, List.filter_filter]
  change (d.pending.filter _).filter _ = _
  rw [List.filter_filter]
  exact List.filter_congr fun p _ => Bool.and_comm ..

end Draft

theorem Replica.value_filter_documents (records : Table Record) (id : RecordId) :
    ((records.filter fun _ record => !record.isPresence).get? id).map Record.value =
      ((records.get? id).map Record.value).filter fun value => value.1 ≠ presenceType := by
  rw [get?_filter]
  cases records.get? id with
  | none => rfl
  | some record =>
    by_cases h : record.typeName = presenceType <;>
      simp [Option.filter, Record.isPresence, Record.value, h]

theorem Changes.value_applyTo (changes : Changes) (records : Table Record) (id : RecordId) :
    ((changes.applyTo records).get? id).map Record.value =
      (changes.get? id).elim ((records.get? id).map Record.value)
        fun change => change.result.map Record.value := by
  rw [get?_applyTo]
  cases changes.get? id <;> rfl

namespace Draft.Alike

variable {d d' : Draft} (h : d.Alike d')
include h

theorem lastPending? (id : RecordId) : d'.lastPending? id = d.lastPending? id := by
  rw [lastPending?_eq_unsettled, lastPending?_eq_unsettled, h.unsettled]

theorem rebase {replica replica' : Replica} (hclock : replica'.clock = replica.clock)
    (hvalues : replica'.values = replica.values) :
    (d.rebase replica).Alike (d'.rebase replica') := by
  refine ⟨?_, Table.ext fun id => ?_, h.unsettled, h.nextPushId⟩
  · rw [clock_rebase, clock_rebase, hclock]
  · rw [get?_values_rebase, get?_values_rebase, h.lastPending?, hvalues]

theorem push (mutations : List Mutation) : (d.push mutations).1.Alike (d'.push mutations).1 := by
  refine ⟨?_, Table.ext fun id => ?_, ?_, congrArg (· + 1) h.nextPushId⟩
  · exact (Replica.clock_applyLocal ..).trans (h.clock.trans (Replica.clock_applyLocal ..).symm)
  · rw [get?_values_push, get?_values_push, h.values]
  · have hpending : ∀ d : Draft, (d.push mutations).1.unsettled =
        d.unsettled ++ [⟨d.nextPushId, mutations⟩].filter fun p => p.mutations ≠ [] :=
      fun d => List.filter_append ..
    rw [hpending, hpending, h.unsettled, h.nextPushId]

theorem allot : d.allot.1.Alike d'.allot.1 :=
  ⟨h.clock, h.values, h.unsettled, congrArg (· + 1) h.nextPushId⟩

theorem settle (result : PushResult) : (d.settle result).1.Alike (d'.settle result).1 := by
  refine ⟨congrArg (max · result.clock) h.clock, Table.ext fun id => ?_, ?_, h.nextPushId⟩
  · rw [get?_values_settle, get?_values_settle, h.values]
  · rw [unsettled_settle, unsettled_settle, h.unsettled]

theorem foldData (msg : DataMessage) : (d.foldData msg).1.Alike (d'.foldData msg).1 := by
  cases msg with
  | pushResult result => exact h.settle result
  | patch p =>
    by_cases hmade : p.fromClock ≤ d.replica.clock ∧ d.replica.clock < p.toClock
    · rw [foldData_patch hmade.1 hmade.2, foldData_patch (h.clock ▸ hmade.1) (h.clock ▸ hmade.2)]
      refine h.rebase rfl (Table.ext fun id => ?_)
      have hvalues := congrArg (Table.get? · id) h.values
      simp only [Replica.get?_values] at hvalues
      rw [Replica.get?_values, Replica.get?_values, Changes.value_applyTo, Changes.value_applyTo,
        hvalues]
    · rw [foldData_patch_dropped hmade, foldData_patch_dropped (h.clock ▸ hmade)]
      exact h

theorem foldBatch (batch : List DataMessage) :
    (d.foldBatch batch).1.Alike (d'.foldBatch batch).1 := by
  induction batch generalizing d d' with
  | nil => exact h
  | cons msg rest ih => exact ih (h.foldData msg)

theorem catchUp (p : Patch) :
    let replica := (d.replica.catchUp p).toOption.getD d.replica
    let replica' := (d'.replica.catchUp p).toOption.getD d'.replica
    replica'.clock = replica.clock ∧ replica'.values = replica.values := by
  intro replica replica'
  by_cases hgap : p.fromClock > d.replica.clock
  · have hr : replica = d.replica := by
      simp only [replica, Replica.catchUp, if_pos hgap, Except.toOption, Option.getD_none]
    have hr' : replica' = d'.replica := by
      simp only [replica', Replica.catchUp, h.clock, if_pos hgap, Except.toOption, Option.getD_none]
    rw [hr, hr']
    exact ⟨h.clock, h.values⟩
  · have hr : replica = ⟨p.toClock, p.changes.applyTo
        (d.replica.records.filter fun _ record => !record.isPresence)⟩ := by
      simp only [replica, Replica.catchUp, if_neg hgap, Except.toOption, Option.getD_some]
    have hr' : replica' = ⟨p.toClock, p.changes.applyTo
        (d'.replica.records.filter fun _ record => !record.isPresence)⟩ := by
      simp only [replica', Replica.catchUp, h.clock, if_neg hgap, Except.toOption, Option.getD_some]
    rw [hr, hr']
    refine ⟨rfl, Table.ext fun id => ?_⟩
    have hvalues := congrArg (Table.get? · id) h.values
    simp only [Replica.get?_values] at hvalues
    rw [Replica.get?_values, Replica.get?_values, Changes.value_applyTo, Changes.value_applyTo,
      Replica.value_filter_documents, Replica.value_filter_documents, hvalues]

theorem hydrate (accepted : Accepted) : (d.hydrate accepted).Alike (d'.hydrate accepted) := by
  have hs : Alike { d with synced := true } { d' with synced := true } :=
    ⟨h.clock, h.values, h.unsettled, h.nextPushId⟩
  rw [Draft.hydrate, Draft.hydrate]
  cases accepted.hydration with
  | full records => exact hs.rebase rfl rfl
  | incremental p =>
    obtain ⟨hclock, hvalues⟩ := h.catchUp p
    exact hs.rebase hclock hvalues

theorem fold (msg : ServerMessage) : (d.fold msg).draft.Alike (d'.fold msg).draft := by
  cases msg with
  | connected accepted => exact h.hydrate accepted
  | data batch => exact h.foldBatch batch
  | rejectConnect _ | pong | error _ => exact h

theorem takeAll (inputs : List Input) : (d.takeAll inputs).Alike (d'.takeAll inputs) := by
  induction inputs generalizing d d' with
  | nil => exact h
  | cons input rest ih =>
    refine ih ?_
    cases input with
    | push mutations => exact h.push mutations
    | presence => exact h.allot
    | receive msg => exact h.fold msg

end Draft.Alike

namespace Draft

variable {d d' : Draft}

theorem exists_settled {msg : ServerMessage} (h : (d.fold msg).draft.unsettled ≠ d.unsettled) :
    ∃ p ∈ d.pending, p.mutations ≠ [] ∧ p ∉ (d.fold msg).draft.pending := by
  refine Classical.byContradiction fun hno => h ?_
  rw [unsettled, unsettled, pending_fold, List.filter_filter]
  refine List.filter_congr fun p hp => ?_
  by_cases hm : p.mutations = []
  · simp [hm]
  · have hp' : p ∈ (d.fold msg).draft.pending := Classical.byContradiction fun hno' =>
      hno ⟨p, hp, hm, hno'⟩
    rw [pending_fold] at hp'
    rw [(List.mem_filter.1 hp').2, Bool.and_true]

def results (ids : List Nat) : ServerMessage :=
  .data (ids.map fun id => .pushResult ⟨id, 0, []⟩)

theorem pending_results (d : Draft) (ids : List Nat) :
    (d.fold (results ids)).draft.pending = d.pending.filter fun p => p.pushId ∉ ids := by
  rw [pending_fold]
  refine List.filter_congr fun p _ => ?_
  have hany : (ids.map fun id => DataMessage.pushResult ⟨id, 0, []⟩).any
      (DataMessage.settles p.pushId) = ids.any (· == p.pushId) := List.any_map
  rw [results, ServerMessage.settles, hany, List.any_beq', decide_not,
    List.contains_eq_mem]

/-- Once all other pushes are settled, a full state brings out an unsettled push that only one of two
copies has. -/
theorem exists_telling (hd : d.Numbered) {p : PendingPush} (hp : p ∈ d.pending)
    (hwrites : p.mutations ≠ []) (hsub : ∀ q ∈ d'.pending, q ∈ d.pending) (hlost : p ∉ d'.pending) :
    ∃ msgs : List ServerMessage, (d'.takeAll (msgs.map .receive)).replica.values ≠
      (d.takeAll (msgs.map .receive)).replica.values := by
  obtain ⟨m, hm⟩ := List.exists_mem_of_ne_nil p.mutations hwrites
  let others := (d.pending.map PendingPush.pushId).filter (· ≠ p.pushId)
  have hothers : p.pushId ∉ others := fun h => by simpa using (List.mem_filter.1 h).2
  have hlast' : (d'.fold (results others)).draft.lastPending? m.recordId = none := by
    refine lastEdit?_eq_none_iff.2 fun m' hm' => ?_
    obtain ⟨q, hq, -⟩ := List.mem_flatMap.1 hm'
    rw [pending_results] at hq
    obtain ⟨hq, hkept⟩ := List.mem_filter.1 hq
    have hid : q.pushId = p.pushId := Decidable.byContradiction fun hne => by
      refine absurd ?_ (of_decide_eq_true hkept)
      exact List.mem_filter.2 ⟨List.mem_map_of_mem (hsub q hq), decide_eq_true hne⟩
    exact absurd (hd.eq_of_pushId (hsub q hq) hp hid ▸ hq) hlost
  have hlast : (d.fold (results others)).draft.lastPending? m.recordId ≠ none := fun hnone => by
    refine lastEdit?_eq_none_iff.1 hnone m (List.mem_flatMap.2 ⟨p, ?_, hm⟩) rfl
    rw [pending_results]
    exact List.mem_filter.2 ⟨hp, decide_eq_true hothers⟩
  obtain ⟨e, he⟩ := Option.ne_none_iff_exists'.1 hlast
  have hshows : ∀ (d : Draft) records, (d.takeAll ([results others,
      .connected ⟨0, 0, false, .full records⟩].map .receive)).replica.values.get? m.recordId =
        ((d.fold (results others)).draft.lastPending? m.recordId).elim
          (((Record.table records).get? m.recordId).map Record.value) Edit.value := by
    intro d records
    exact (get?_values_rebase ..).trans (by rw [Replica.get?_values]; rfl)
  -- The state has no record under the id if the edit puts one there, and one if it deletes it.
  cases hv : e.value with
  | some value =>
    refine ⟨[results others, .connected ⟨0, 0, false, .full []⟩], fun h => ?_⟩
    have h := congrArg (Table.get? · m.recordId) h
    simp only [hshows, hlast', he, Option.elim, hv] at h
    cases h
  | none =>
    let record : Record := ⟨m.recordId, "", .null, 0⟩
    refine ⟨[results others, .connected ⟨0, 0, false, .full [record]⟩], fun h => ?_⟩
    have h := congrArg (Table.get? · m.recordId) h
    have hrecord : (Record.table [record]).get? m.recordId = some record := by
      rw [Record.table, get?_ofList]
      exact if_pos rfl
    simp only [hshows, hlast', he, Option.elim, hv, hrecord] at h
    cases h

end Draft

end RoomSync
