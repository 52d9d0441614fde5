import RoomSync.Proofs.Draft.Stamps
import RoomSync.Proofs.Room.Reception

namespace RoomSync

open Table

namespace Store

theorem effect?_of_agrees {records : Table Record} {clock : Nat} {id : RecordId} {e : Edit}
    {r : Record} (hr : records.get? id = some r) (h : Agrees e.value (some r)) :
    effect? records clock (id, e) = none := by
  cases e with
  | upsert typeName content =>
    have hholds : Changes.holdsValue records id ⟨id, typeName, content, clock⟩ = true := by
      rw [Changes.holdsValue, hr]
      exact h
    exact if_pos hholds
  | delete => exact h.elim

theorem stamp_effect_iff (records : Table Record) (clock : Nat) (id : RecordId) (e : Edit)
    {stamp : Nat} (hstamp : effect? records clock (id, e) ≠ none → stamp = clock) :
    (∀ r, (effect? records clock (id, e)).elim (records.get? id) Change.result = some r →
        r.stamp = stamp) ↔
      ∀ r, records.get? id = some r → Agrees e.value (some r) → r.stamp = stamp := by
  cases he : effect? records clock (id, e) with
  | none =>
    have hagrees := agrees_effect records clock id e
    rw [he, Option.elim_none] at hagrees
    exact ⟨fun h r hr _ => h r hr, fun h r hr => h r hr (hr ▸ hagrees)⟩
  | some change =>
    obtain rfl := hstamp (by rw [he]; exact nofun)
    refine ⟨fun _ r hr hagrees => ?_, fun _ r hr => ?_⟩
    · cases he.symm.trans (effect?_of_agrees hr hagrees)
    · cases change with
      | put record =>
        obtain rfl := Option.some.inj hr
        exact (effect?_put he).2.1
      | remove => cases hr

end Store

namespace Room

variable {r : Room} {own : Option RecordId} {push : Push}

theorem clock_applyPush (h : (r.stored push.mutations).2.changes ≠ Table.empty) :
    (r.applyPush own push).1.clock = r.clock + 1 := by
  have hf := Store.follows_apply r.store r.config.schema (r.plain push.mutations) h
  obtain hs | hs := r.applyPush_store own push
  · exact (congrArg Store.clock hs).trans hf.clock
  · exact congrArg Store.clock hs

/-- What a push, and the result that tells of it, make of one document. -/
structure Wrote (r r' : Room) (result : PushResult) (id : RecordId) (e : Edit) : Prop where
  agrees : Agrees e.value (r'.store.records.get? id)
  named : ∀ record, r'.store.records.get? id = some record → record.id = id
  stamped : (∀ record, r'.store.records.get? id = some record → record.stamp = result.clock) ↔
    ∀ record, r.store.records.get? id = some record → Agrees e.value (some record) →
      record.stamp = result.clock

theorem Placed.wrote (h : r.Placed) (hown : ∀ id, own = some id → r.isPresenceId id = true)
    {id : RecordId} {e : Edit} (he : lastEdit? push.mutations id = some e)
    (hno : ∀ rejection ∈ (r.answer own push).rejected, rejection.recordId ≠ id) :
    Wrote r (r.applyPush own push).1 (r.answer own push) id e := by
  have hchanges : (r.stored push.mutations).2.changes.get? id =
      Store.effect? r.store.records (r.clock + 1) (id, e) := by
    rw [stored_changes hno, he, Option.bind_some]
  have hrecords : (r.applyPush own push).1.store.records.get? id =
      (Store.effect? r.store.records (r.clock + 1) (id, e)).elim (r.store.records.get? id)
        Change.result := by
    rw [applyPush_documents, stored_records, hchanges]
  have hclock : Store.effect? r.store.records (r.clock + 1) (id, e) ≠ none →
      (r.answer own push).clock = r.clock + 1 := by
    refine fun hsome => clock_applyPush fun hempty => hsome ?_
    rw [← hchanges, hempty]
    rfl
  refine ⟨?_, fun record hr => (h.applyPush push hown).documents_keyed id record hr, ?_⟩
  · rw [hrecords]
    exact Store.agrees_effect ..
  · rw [hrecords]
    exact Store.stamp_effect_iff _ _ _ _ hclock

theorem mem_rejected {rejection : Rejection} (hr : rejection ∈ (r.answer own push).rejected) :
    rejection ∈ r.turnedDown own push.mutations ∨
      own = some rejection.recordId ∧ rejection.current = r.presence.get? rejection.recordId := by
  by_cases hne : some rejection.recordId = own
  · subst hne
    by_cases hrefused : ∃ content reason, push.presence = some content ∧
        r.config.schema.checkPresence content = .error reason
    · obtain ⟨content, reason, hp, hc⟩ := hrefused
      rw [rejected_of_refused hp hc] at hr
      obtain hr | hr := List.mem_append.1 hr
      · exact .inl hr
      · exact .inr ⟨rfl, congrArg Rejection.current (List.mem_singleton.1 hr)⟩
    · rw [rejected_of_not_refused hrefused] at hr
      exact .inl hr
  · exact .inl ((r.rejected_applyPush own push).2 rejection hr hne)

theorem Placed.answers (h : r.Placed) (push : Push) : (r.answer own push).Answers push := by
  refine ⟨rfl, fun rejection hr record hc => ?_⟩
  obtain hr | ⟨-, hcurrent⟩ := mem_rejected hr
  · obtain hr | hr := List.mem_append.1 hr
    · obtain ⟨m, -, rfl⟩ := List.mem_map.1 hr
      have hc : (if own = some m.recordId then none else r.presence.get? m.recordId) =
          some record := hc
      split at hc
      · cases hc
      · exact h.presence_keyed m.recordId record hc
    · obtain ⟨m, -, hreason⟩ := List.mem_filterMap.1 hr
      obtain ⟨reason, -, rfl⟩ := Option.map_eq_some_iff.1 hreason
      exact (h.stored push.mutations).documents_keyed m.recordId record hc
  · exact h.presence_keyed _ record (hcurrent.symm.trans hc)

end Room

namespace LiveRoom

variable {σ : Type} [Host σ] {l : LiveRoom σ} {key : String} {push : Push} {now : Nat}
  {result : PushResult}

open Room in
theorem wrote_of_receivePush (hp : l.room.Placed) (h : (l.receivePush key push now).2 = .ok result)
    {id : RecordId} {e : Edit} (he : lastEdit? push.mutations id = some e)
    (hno : ∀ rejection ∈ result.rejected, rejection.recordId ≠ id) :
    Room.Wrote l.room (l.receivePush key push now).1.room result id e := by
  obtain ⟨s, hs, -, -, rfl, hmoment⟩ := made_of_receivePush h
  have hw := hp.wrote (fun id hid => isPresenceId_of_session hs hid) he hno
  have hdocuments := congrArg Moment.documents hmoment
  change (l.receivePush key push now).1.room.store.records =
    (l.room.applyPush s.presenceId push).1.store.records at hdocuments
  obtain ⟨hagrees, hnamed, hstamped⟩ := hw
  rw [← hdocuments] at hagrees hnamed hstamped
  exact ⟨hagrees, hnamed, hstamped⟩

theorem answers_of_receivePush (hp : l.room.Placed)
    (h : (l.receivePush key push now).2 = .ok result) : result.Answers push := by
  obtain ⟨s, -, -, -, rfl, -⟩ := made_of_receivePush h
  exact hp.answers push

theorem heed_push (h : (l.receivePush key push now).2 = .ok result) :
    l.heed key (.push push) now = (l.receivePush key push now).1 := by
  obtain ⟨s, hs, hc, hkey, -, -⟩ := made_of_receivePush h
  have hphase : s.phase ≠ .awaitingRemoval := fun he => by
    simp [Session.isConnected, he] at hc
  rw [l.heed_of_session now hs hphase, hear_of_connected hs hc hkey]

end LiveRoom

end RoomSync
