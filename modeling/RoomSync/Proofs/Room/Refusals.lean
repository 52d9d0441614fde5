import RoomSync.Proofs.Room.Namespace
import RoomSync.Proofs.Room.Sessions
import RoomSync.Proofs.Store.Batch

namespace RoomSync

open Table

/-- What a rejection says apart from the record that stands. -/
def Rejection.notice (rejection : Rejection) : RecordId × Refusal :=
  (rejection.recordId, rejection.reason)

theorem Store.apply_filter_valid (s : Store) (schema : Schema) (mutations : List Mutation) :
    (s.apply schema (mutations.filter fun m => (schema.refusal? m).isNone)).1 =
      (s.apply schema mutations).1 := by
  have hlast : lastEdits schema (mutations.filter fun m => (schema.refusal? m).isNone) =
      lastEdits schema mutations := by
    simp only [lastEdits, List.filter_filter, Bool.and_self]
  simp only [apply, hlast]

namespace Room

variable (r : Room) (own : RecordId) (push : Push)

def presenceIds : List RecordId := r.sessions.values.filterMap Session.presenceId

def presenceRefusal? : Option Refusal :=
  push.presence.bind fun content =>
    match r.config.schema.checkPresence content with
    | .error reason => some reason
    | .ok () => none

/-- All that is refused of a push: the mutations under presence ids, then the upserts of other ids
that the schema refuses, then the presence. -/
def refusals : List (RecordId × Refusal) :=
  ((push.mutations.filter fun m => m.recordId ∈ r.presenceIds).map fun m =>
      (m.recordId, .reservedId m.recordId)) ++
    ((push.mutations.filter fun m => m.recordId ∉ r.presenceIds).filterMap fun m =>
      (r.config.schema.refusal? m).map fun reason => (m.recordId, reason)) ++
    ((r.presenceRefusal? push).map fun reason => (own, reason)).toList

def made (mutations : List Mutation) : List Mutation :=
  mutations.filter fun m =>
    m.recordId ∉ r.presenceIds && (r.config.schema.refusal? m).isNone

/-- What a result tells the pusher with a presence id of a push that led from one room to another
one. -/
structure Accounts (after : Room) (result : PushResult) : Prop where
  listed : result.rejected.map Rejection.notice = r.refusals own push
  /-- The rest is made as one batch, which leaves what its mutations leave one after the other. -/
  batch : after.store.records =
    (r.store.apply r.config.schema (r.made push.mutations)).1.records
  values : ∀ id, Agrees
    ((Store.makeAll r.config.schema r.store.values (r.made push.mutations)).get? id)
    (after.store.get? id)
  current : ∀ rejection ∈ result.rejected, rejection.recordId ≠ own →
    rejection.current = after.moment.records.get? rejection.recordId

def Identified : Prop := ∀ key s c, r.session? key = some s → s.state = .connected c →
  ∃ own, s.presenceId = some own

variable {r own push}

theorem Owned.isPresenceId (h : r.Owned none) (id : RecordId) :
    r.isPresenceId id = true ↔ id ∈ r.presenceIds := by
  rw [presenceIds, List.mem_filterMap]
  refine ⟨fun hid => ?_, fun ⟨s, hs, hid⟩ => ?_⟩
  · rw [Room.isPresenceId, Bool.or_eq_true, List.any_eq_true] at hid
    obtain hid | ⟨s, hs, hid⟩ := hid
    · obtain ⟨record, hr⟩ := contains_iff.1 hid
      obtain ⟨key, s, hs, hid⟩ := h.owner hr
      exact ⟨s, mem_values.2 ⟨key, hs⟩, hid⟩
    · exact ⟨s, hs, of_decide_eq_true hid⟩
  · obtain ⟨key, hk⟩ := mem_values.1 hs
    exact isPresenceId_of_session hk hid

theorem notices_turnedDown (h : r.Owned none) (mutations : List Mutation) :
    (r.turnedDown (some own) mutations).map Rejection.notice =
      ((mutations.filter fun m => m.recordId ∈ r.presenceIds).map fun m =>
        (m.recordId, .reservedId m.recordId)) ++
      (mutations.filter fun m => m.recordId ∉ r.presenceIds).filterMap fun m =>
        (r.config.schema.refusal? m).map fun reason => (m.recordId, reason) := by
  have hreserved : ∀ id, r.isPresenceId id = decide (id ∈ r.presenceIds) := fun id =>
    Bool.eq_iff_iff.2 ((h.isPresenceId id).trans decide_eq_true_iff.symm)
  have hstored : (r.stored mutations).2.rejected =
      Store.rejections r.config.schema (r.plain mutations) (r.stored mutations).1.records := rfl
  rw [turnedDown, List.map_append, hstored, reservedRejections, Store.rejections, plain,
    List.map_map, List.map_filterMap]
  simp only [hreserved, Option.map_map, ← decide_not]
  rfl

theorem notices_answer (h : r.Owned none) (push : Push) :
    (r.answer (some own) push).rejected.map Rejection.notice = r.refusals own push := by
  rw [refusals, ← notices_turnedDown h]
  by_cases hrefused : ∃ content reason, push.presence = some content ∧
      r.config.schema.checkPresence content = .error reason
  · obtain ⟨content, reason, hp, hc⟩ := hrefused
    have hreason : r.presenceRefusal? push = some reason := by
      rw [presenceRefusal?, hp, Option.bind_some, hc]
    rw [rejected_of_refused hp hc, List.map_append, hreason]
    rfl
  · have hnone : r.presenceRefusal? push = none := by
      refine Option.eq_none_iff_forall_not_mem.2 fun reason hr => hrefused ?_
      obtain ⟨content, hp, hr⟩ := Option.bind_eq_some_iff.1 hr
      refine ⟨content, reason, hp, ?_⟩
      cases hc : r.config.schema.checkPresence content with
      | error reason' =>
        rw [hc] at hr
        exact congrArg _ (Option.some.inj hr)
      | ok _ =>
        rw [hc] at hr
        cases hr
    rw [rejected_of_not_refused hrefused, hnone]
    exact (List.append_nil _).symm

theorem stored_made (h : r.Owned none) (mutations : List Mutation) :
    (r.stored mutations).1 = (r.store.apply r.config.schema (r.made mutations)).1 := by
  have hmade : r.made mutations =
      (r.plain mutations).filter fun m => (r.config.schema.refusal? m).isNone := by
    rw [made, plain, List.filter_filter]
    apply List.filter_congr
    intro m _
    rw [Bool.and_comm, Bool.eq_iff_iff]
    simp [← h.isPresenceId m.recordId]
  rw [hmade, Store.apply_filter_valid, stored]

theorem accounts_applyPush (hp : r.Placed) (ho : r.Owned none) (push : Push) {after : Room}
    (hafter : (r.applyPush (some own) push).1.Rests after) :
    r.Accounts own push after (r.answer (some own) push) := by
  have hdocuments : after.store.records =
      (r.store.apply r.config.schema (r.made push.mutations)).1.records := by
    rw [hafter.store, applyPush_documents, stored_made ho]
  refine ⟨notices_answer ho push, hdocuments, fun id => ?_, fun rejection hr hne => ?_⟩
  · rw [Store.get?, hdocuments]
    exact Store.apply_values ..
  · have hne : some rejection.recordId ≠ some own := fun he => hne (Option.some.inj he)
    have hturned := (r.rejected_applyPush (some own) push).2 rejection hr hne
    rw [hafter.moment, applyPush_records push hne]
    exact hp.turnedDown_current hturned hne

end Room

namespace LiveRoom

open Room

variable {σ : Type} [Host σ] {l : LiveRoom σ}

theorem identified_perform (h : l.room.Identified) (call : Call) :
    (l.perform call).room.Identified := by
  intro key s' c' hs' hc'
  cases l.fate call key with
  | stays _ _ hstays =>
    obtain ⟨s, hs, hages⟩ := hstays s' hs'
    obtain ⟨c, hc, -⟩ := hages.connected hc'
    rw [hages.presenceId]
    exact h key s c hs hc
  | opened _ hstart =>
    obtain rfl := Option.some.inj (hstart.symm.trans hs')
    cases hc'
  | joined _ hjoined hid _ _ hages =>
    obtain rfl := Option.some.inj (hjoined.symm.trans hs')
    exact ⟨_, hages.presenceId.trans hid⟩

theorem identified_run (h : l.room.Identified) (calls : List Call) :
    (l.run calls).room.Identified := by
  induction calls generalizing l with
  | nil => exact h
  | cons call rest ih => exact ih (identified_perform h call)

theorem placed_owned_run (config : Config) (snapshot : Snapshot) (host : σ) (calls : List Call) :
    (run ⟨.ofSnapshot config snapshot, host⟩ calls).room.Placed ∧
      (run ⟨.ofSnapshot config snapshot, host⟩ calls).room.Owned none := by
  have hstart : (Room.ofSnapshot config snapshot).Placed ∧
      (Room.ofSnapshot config snapshot).Owned none :=
    ⟨⟨Record.keyed_table snapshot.records, nofun, nofun, nofun, nofun, nofun, nofun⟩, nofun⟩
  exact run_keeps (P := fun l => l.room.Placed ∧ l.room.Owned none)
    (l := ⟨.ofSnapshot config snapshot, host⟩)
    (fun _ _ _ _ ht h => ⟨ht.placed h.1, ht.owned h.1 h.2⟩) hstart calls

/-- Whatever a room has been through, a push of a connected session is answered, and the answer
accounts for all of it. -/
theorem accounts_run (config : Config) (snapshot : Snapshot) (host : σ) (calls : List Call)
    {key : String} {s : Session} {push : Push} (now : Nat)
    (hs : (run ⟨.ofSnapshot config snapshot, host⟩ calls).room.session? key = some s)
    (hc : s.isConnected = true) (hkey : push.sessionKey = key) :
    let l := run ⟨.ofSnapshot config snapshot, host⟩ calls
    ∃ own result, s.presenceId = some own ∧ (l.receivePush key push now).2 = .ok result ∧
      l.room.Accounts own push (l.receivePush key push now).1.room result := by
  intro l
  obtain ⟨hp, ho⟩ := placed_owned_run config snapshot host calls
  have hidentified : l.room.Identified :=
    identified_run (l := ⟨.ofSnapshot config snapshot, host⟩) nofun calls
  obtain ⟨c, hconnected⟩ := mem_connectedKeys_iff.1 (mem_connectedKeys.2 ⟨s, hs, hc⟩)
  obtain ⟨t, ht, hstate⟩ := connected?_eq_some.1 hconnected
  obtain rfl := Option.some.inj (hs.symm.trans ht)
  obtain ⟨own, hown⟩ := hidentified key s c hs hstate
  refine ⟨own, _, hown, congrArg Prod.snd (l.receivePush_of_connected now hs hc hkey), ?_⟩
  rw [l.receivePush_of_connected now hs hc hkey, hown, answer_touch]
  refine accounts_applyPush hp ho push ?_
  have hserve := (steady_serve { l with room := l.room.modifySession key (·.touch now) } key
    (some own) push now).rests
  rw [applyPush_touch] at hserve
  exact ⟨hserve.config, hserve.store, hserve.presence⟩

/-- Two sessions share the room. One of them pushes a note that the schema takes and then takes no
more, a mutation under the presence id of each of them, a note without an id and a presence that is
no object. -/
theorem accounts_run_mixed :
    let config : Config := { schema := (Schema.base 1).withType (.document "note") }
    let calls : List Call := [⟨0, .openSocket "a" 0 .null⟩,
      ⟨0, .connect "a" ⟨"a", "presence:a", ⟨1, []⟩, none⟩⟩, ⟨0, .openSocket "b" 1 .null⟩,
      ⟨0, .connect "b" ⟨"b", "presence:b", ⟨1, []⟩, none⟩⟩,
      ⟨0, .push "b" ⟨"b", 1, [], some (.object [])⟩⟩]
    let note : RecordId → Content → Mutation := fun id content => ⟨id, .upsert "note" content⟩
    let push : Push := ⟨"a", 1, [note "n" (.object []), note "" (.object []), ⟨"presence:b", .delete⟩,
      note "n" .null, ⟨"presence:a", .delete⟩], some .null⟩
    let l : LiveRoom Unit := run ⟨.ofSnapshot config ⟨0, []⟩, ()⟩ calls
    let made : Record := ⟨"n", "note", .object [], 2⟩
    let other : Record := ⟨"presence:b", "presence", .object [], 1⟩
    let result : PushResult := ⟨1, 2, [⟨"presence:b", .reservedId "presence:b", some other⟩,
      ⟨"presence:a", .reservedId "presence:a", none⟩, ⟨"", .emptyId, none⟩,
      ⟨"n", .notAnObject, some made⟩, ⟨"presence:a", .notAnObject, none⟩]⟩
    (l.receivePush "a" push 0).1.room.store.records.values = [made] ∧
      (l.receivePush "a" push 0).2.toOption = some result ∧
      ∃ own, l.room.Accounts own push (l.receivePush "a" push 0).1.room result := by
  intro config calls note push l made other result
  have hrecords : (l.receivePush "a" push 0).1.room.store.records.values = [made] := by
    decide +kernel
  have hresult : (l.receivePush "a" push 0).2.toOption = some result := by decide +kernel
  have hconnected : (l.room.session? "a").any Session.isConnected = true := by decide +kernel
  have hall := fun s => @accounts_run Unit _ config ⟨0, []⟩ () calls "a" s push 0
  -- The room that was run is from here on any room of which all this is known.
  have hl : run ⟨.ofSnapshot config ⟨0, []⟩, ()⟩ calls = l := rfl
  simp only [hl] at hall
  clear_value l
  cases hs : l.room.session? "a" with
  | none =>
    rw [hs] at hconnected
    cases hconnected
  | some s =>
    rw [hs] at hconnected
    obtain ⟨own, given, -, hgiven, haccounts⟩ := hall s hs hconnected rfl
    have hsame : given = result := by
      rw [hgiven] at hresult
      exact Option.some.inj hresult
    rw [hsame] at haccounts
    exact ⟨hrecords, hresult, own, haccounts⟩

end LiveRoom

end RoomSync
