import RoomSync.Proofs.Room.Moment
import RoomSync.Room.Push

namespace RoomSync

open Table

/-- What a result tells the pusher with a presence id about the mutations that it settles, which led
from one moment of the room to another one. -/
structure Settles (own : Option RecordId) (m m' : Moment) (mutations : List Mutation)
    (result : PushResult) : Prop where
  clock : result.clock = m'.clock
  rejected : ∀ rejection ∈ result.rejected, some rejection.recordId ≠ own →
    rejection.current = m'.records.get? rejection.recordId
  accepted : ∀ id, some id ≠ own → (∀ rejection ∈ result.rejected, rejection.recordId ≠ id) →
    match lastEdit? mutations id with
    | some e => Agrees e.value (m'.records.get? id)
    | none => m'.records.get? id = m.records.get? id

namespace Room

theorem isPresenceId_of_session {r : Room} {key : String} {s : Session} {id : RecordId}
    (hs : r.session? key = some s) (hid : s.presenceId = some id) : r.isPresenceId id = true := by
  rw [isPresenceId, Bool.or_eq_true]
  refine .inr (List.any_eq_true.2 ⟨s, mem_values.2 ⟨key, hs⟩, ?_⟩)
  simpa using hid

theorem isPresenceId_of_presence {r : Room} {id : RecordId} {record : Record}
    (h : r.presence.get? id = some record) : r.isPresenceId id = true := by
  rw [isPresenceId, contains, h]
  rfl

theorem isPresenceId_touch (r : Room) (key : String) (now : Nat) :
    (r.modifySession key (·.touch now)).isPresenceId = r.isPresenceId := by
  funext id
  have hvalues : (∃ s ∈ (r.modifySession key (·.touch now)).sessions.values,
      s.presenceId = some id) ↔ ∃ s ∈ r.sessions.values, s.presenceId = some id := by
    refine ⟨fun ⟨s', hs', hid⟩ => ?_, fun ⟨s, hs, hid⟩ => ?_⟩
    · obtain ⟨k, hk⟩ := mem_values.1 hs'
      obtain ⟨s, hs, hfades⟩ := (r.steady_touch key now).sessions k s' hk
      exact ⟨s, mem_values.2 ⟨k, hs⟩, hfades.presenceId ▸ hid⟩
    · obtain ⟨k, hk⟩ := mem_values.1 hs
      obtain ⟨s', hs', hfades⟩ := (r.steady_touch key now).session hk
      exact ⟨s', mem_values.2 ⟨k, hs'⟩, hfades.presenceId.trans hid⟩
  have hpresence : (r.modifySession key (·.touch now)).presence = r.presence := rfl
  rw [Bool.eq_iff_iff, isPresenceId, isPresenceId, hpresence]
  simp only [Bool.or_eq_true, List.any_eq_true, decide_eq_true_eq, hvalues]

theorem Placed.document_of_isPresenceId {r : Room} (h : r.Placed) {id : RecordId}
    (hid : r.isPresenceId id = true) : r.store.records.get? id = none := by
  rw [isPresenceId, Bool.or_eq_true] at hid
  obtain hid | hid := hid
  · obtain ⟨record, hr⟩ := contains_iff.1 hid
    exact h.disjoint id record hr
  · obtain ⟨s, hs, hid⟩ := List.any_eq_true.1 hid
    obtain ⟨key, hk⟩ := mem_values.1 hs
    exact h.reserved key s id hk (by simpa using hid)

variable (r : Room) (own : Option RecordId)

def plain (mutations : List Mutation) : List Mutation :=
  mutations.filter fun m => !r.isPresenceId m.recordId

def stored (mutations : List Mutation) : Store × Store.Outcome :=
  r.store.apply r.config.schema (r.plain mutations)

theorem stored_reserved (mutations : List Mutation) {id : RecordId}
    (hid : r.isPresenceId id = true) : (r.stored mutations).2.changes.get? id = none := by
  rw [stored, Store.apply_changes]
  cases he : (Store.lastEdits r.config.schema (r.plain mutations)).get? id with
  | none => rfl
  | some e =>
    rw [Store.lastEdits, get?_ofList] at he
    obtain ⟨m, hm, hme⟩ := List.mem_map.1 (Entries.mem_of_last? he)
    have hp := (List.mem_filter.1 (List.mem_filter.1 hm).1).2
    rw [(Prod.mk.inj hme).1, hid] at hp
    cases hp

theorem stored_records (mutations : List Mutation) (id : RecordId) :
    (r.stored mutations).1.records.get? id =
      ((r.stored mutations).2.changes.get? id).elim (r.store.records.get? id) Change.result :=
  Store.apply_records ..

theorem stored_typed (hk : r.config.schema.KeepsPresence) (mutations : List Mutation)
    {id : RecordId} {record : Record}
    (h : (r.stored mutations).2.changes.get? id = some (.put record)) :
    record.isPresence = false := by
  have hv := Store.apply_valid _ _ _ h
  simpa [Record.isPresence] using hk.document hv

theorem Placed.stored_document {r : Room} (h : r.Placed) (mutations : List Mutation)
    {id : RecordId} (hid : r.isPresenceId id = true) :
    (r.stored mutations).1.records.get? id = none := by
  rw [stored_records, stored_reserved r mutations hid]
  exact h.document_of_isPresenceId hid

theorem Placed.stored {r : Room} (h : r.Placed) (mutations : List Mutation) :
    ({ r with store := (r.stored mutations).1 } : Room).Placed where
  documents_keyed := Store.apply_keyed _ _ _ h.documents_keyed
  presence_keyed := h.presence_keyed
  presence_typed := h.presence_typed
  disjoint _ _ hp := h.stored_document mutations (isPresenceId_of_presence hp)
  reserved _ _ _ hs hid := h.stored_document mutations (isPresenceId_of_session hs hid)
  waiting := h.waiting
  apart := h.apart

theorem stored_sound {r : Room} (h : r.store.Sound) (mutations : List Mutation) :
    (r.stored mutations).1.Sound := by
  by_cases hc : (r.stored mutations).2.changes = Table.empty
  · rw [Room.stored, Store.apply_of_empty _ _ _ hc]
    exact h
  · exact (Store.follows_apply _ _ _ hc).sound h

theorem stored_documents_typed {r : Room} (hk : r.config.schema.KeepsPresence)
    (h : ∀ id record, r.store.records.get? id = some record → record.isPresence = false)
    (mutations : List Mutation) (id : RecordId) (record : Record)
    (hr : (r.stored mutations).1.records.get? id = some record) : record.isPresence = false := by
  rw [stored_records] at hr
  rcases hc : (r.stored mutations).2.changes.get? id with _ | _ | _
  · rw [hc] at hr
    exact h id record hr
  · rw [hc] at hr
    obtain rfl := Option.some.inj hr
    exact r.stored_typed hk mutations hc
  · rw [hc] at hr
    cases hr

theorem stored_moment (mutations : List Mutation) :
    ({ r with store := (r.stored mutations).1 } : Room).moment.records =
      (r.stored mutations).2.changes.applyTo r.moment.records := by
  apply Table.ext
  intro id
  rw [Changes.get?_applyTo, Moment.get?_records, Moment.get?_records]
  change (r.presence.get? id).or ((r.stored mutations).1.records.get? id) =
    ((r.stored mutations).2.changes.get? id).elim
      ((r.presence.get? id).or (r.store.records.get? id)) Change.result
  rw [stored_records]
  cases hp : r.presence.get? id with
  | none => rw [Option.none_or, Option.none_or]
  | some record => rw [stored_reserved r mutations (isPresenceId_of_presence hp)]; rfl

/-- How the presence part of a push ends: it is refused, it changes nothing, or it puts a record and
moves the clock unless the document part has done so. -/
theorem pushPresence_cases (own : RecordId) (content : Content) (outcome : PushOutcome) :
    (∃ reason, r.pushPresence own content outcome =
        (r, { outcome with rejected :=
          outcome.rejected ++ [⟨own, reason, r.presence.get? own⟩] })) ∨
      r.pushPresence own content outcome = (r, outcome) ∨
      ∃ store record, store = (if outcome.changes.isEmpty then r.store.advance else r.store) ∧
        record = (⟨own, presenceType, content, store.clock⟩ : Record) ∧
        r.pushPresence own content outcome =
          ({ r with store, presence := r.presence.insert own record },
            { outcome with changes := outcome.changes.put record }) := by
  rw [pushPresence]
  split
  · rename_i reason _
    exact .inl ⟨reason, rfl⟩
  · split
    · exact .inr (.inl rfl)
    · exact .inr (.inr ⟨_, _, rfl, rfl, rfl⟩)

def turnedDown (mutations : List Mutation) : List Rejection :=
  r.reservedRejections own mutations ++ (r.stored mutations).2.rejected

theorem applyPush_of_presence {push : Push} {content : Content} (hp : push.presence = some content)
    (id : RecordId) :
    r.applyPush (some id) push =
      ({ r with store := (r.stored push.mutations).1 } : Room).pushPresence id content
        ⟨(r.stored push.mutations).2.changes, r.turnedDown (some id) push.mutations⟩ := by
  rw [applyPush, hp]
  rfl

/-- A push either makes its document part only, with at most its presence refused, or publishes a
presence record besides. -/
theorem applyPush_cases (push : Push) :
    (∃ rejected, r.applyPush own push =
        ({ r with store := (r.stored push.mutations).1 },
          ⟨(r.stored push.mutations).2.changes, rejected⟩) ∧
      (∀ rejection ∈ r.turnedDown own push.mutations, rejection ∈ rejected) ∧
      ∀ rejection ∈ rejected, some rejection.recordId ≠ own →
        rejection ∈ r.turnedDown own push.mutations) ∨
      ∃ id content store record, own = some id ∧
        store = (if (r.stored push.mutations).2.changes.isEmpty
          then (r.stored push.mutations).1.advance else (r.stored push.mutations).1) ∧
        record = (⟨id, presenceType, content, store.clock⟩ : Record) ∧
        r.applyPush own push =
          ({ r with store, presence := r.presence.insert id record },
            ⟨(r.stored push.mutations).2.changes.put record,
              r.turnedDown own push.mutations⟩) := by
  have hplain : r.applyPush own push = r.pushDocuments own push.mutations →
      ∃ rejected, r.applyPush own push =
        ({ r with store := (r.stored push.mutations).1 },
          ⟨(r.stored push.mutations).2.changes, rejected⟩) ∧
      (∀ rejection ∈ r.turnedDown own push.mutations, rejection ∈ rejected) ∧
      ∀ rejection ∈ rejected, some rejection.recordId ≠ own →
        rejection ∈ r.turnedDown own push.mutations :=
    fun h => ⟨_, h, fun _ h => h, fun _ h _ => h⟩
  cases hp : push.presence with
  | none =>
    refine .inl (hplain ?_)
    rw [applyPush, hp]
  | some content =>
    cases own with
    | none =>
      refine .inl (hplain ?_)
      rw [applyPush, hp]
    | some id =>
      rw [r.applyPush_of_presence hp]
      obtain ⟨reason, he⟩ | he | ⟨store, record, hs, hr, he⟩ :=
        pushPresence_cases { r with store := (r.stored push.mutations).1 } id content
          ⟨(r.stored push.mutations).2.changes, r.turnedDown (some id) push.mutations⟩
      · rw [he]
        refine .inl ⟨_, rfl, fun _ h => List.mem_append_left _ h, fun rejection h hne => ?_⟩
        obtain h | h := List.mem_append.1 h
        · exact h
        · obtain rfl := List.mem_singleton.1 h
          exact absurd rfl hne
      · rw [he]
        exact .inl ⟨_, rfl, fun _ h => h, fun _ h _ => h⟩
      · exact .inr ⟨id, content, store, record, rfl, hs, hr, he⟩

theorem rejected_applyPush (push : Push) :
    (∀ rejection ∈ r.turnedDown own push.mutations,
        rejection ∈ (r.applyPush own push).2.rejected) ∧
      ∀ rejection ∈ (r.applyPush own push).2.rejected, some rejection.recordId ≠ own →
        rejection ∈ r.turnedDown own push.mutations := by
  obtain ⟨_, he, h1, h2⟩ | ⟨_, _, _, _, -, -, -, he⟩ := r.applyPush_cases own push
  · rw [he]
    exact ⟨h1, h2⟩
  · rw [he]
    exact ⟨fun _ h => h, fun _ h _ => h⟩

theorem applyPush_frame (push : Push) :
    (r.applyPush own push).1.config = r.config ∧
      (r.applyPush own push).1.sessions = r.sessions := by
  obtain ⟨_, he, -⟩ | ⟨_, _, _, _, -, -, -, he⟩ := r.applyPush_cases own push <;> rw [he] <;>
    exact ⟨rfl, rfl⟩

theorem applyPush_reserved (push : Push) {id : RecordId} (hid : r.isPresenceId id = true)
    (hne : own ≠ some id) : (r.applyPush own push).2.changes.get? id = none := by
  obtain ⟨_, he, -⟩ | ⟨i, _, _, _, rfl, -, rfl, he⟩ := r.applyPush_cases own push
  · rw [he]
    exact r.stored_reserved push.mutations hid
  · rw [he]
    have hne : id ≠ i := fun h => hne (congrArg some h.symm)
    rw [Changes.get?_put, if_neg hne]
    exact r.stored_reserved push.mutations hid

theorem applyPush_documents (push : Push) :
    (r.applyPush own push).1.store.records = (r.stored push.mutations).1.records := by
  obtain ⟨_, he, -⟩ | ⟨_, _, store, _, -, hs, -, he⟩ := r.applyPush_cases own push
  · rw [he]
  · rw [he]
    change store.records = _
    rw [hs]
    split <;> rfl

variable {r own}

theorem Placed.applyPush (h : r.Placed) (push : Push)
    (hown : ∀ id, own = some id → r.isPresenceId id = true) :
    (r.applyPush own push).1.Placed := by
  have hstored := h.stored push.mutations
  obtain ⟨_, he, -⟩ | ⟨id, content, store, record, hid, -, hr, he⟩ := r.applyPush_cases own push
  · rw [he]
    exact hstored
  · have hrecords := r.applyPush_documents own push
    rw [he] at hrecords ⊢
    refine ⟨?_, ?_, fun k v hv => ?_, fun k v hv => ?_, fun key s k hs hk => ?_, h.waiting, h.apart⟩
    · change store.records.KeyedBy Record.id
      rw [hrecords]
      exact hstored.documents_keyed
    · have hkeyed := h.presence_keyed.insert record
      rw [hr] at hkeyed ⊢
      exact hkeyed
    · have hv : (r.presence.insert id record).get? k = some v := hv
      rw [get?_insert] at hv
      split at hv
      · obtain rfl := Option.some.inj hv
        rw [hr]
        rfl
      · exact h.presence_typed k v hv
    · have hv : (r.presence.insert id record).get? k = some v := hv
      change store.records.get? k = none
      rw [hrecords]
      rw [get?_insert] at hv
      split at hv
      · rename_i hk'
        exact h.stored_document _ (hk' ▸ hown id hid)
      · exact hstored.disjoint k v hv
    · change store.records.get? k = none
      rw [hrecords]
      exact hstored.reserved key s k hs hk

variable (r own) in
theorem applyPush_store (push : Push) :
    (r.applyPush own push).1.store = (r.stored push.mutations).1 ∨
      (r.applyPush own push).1.store = r.store.advance := by
  obtain ⟨_, he, -⟩ | ⟨id, content, store, record, hid, hs, hr, he⟩ := r.applyPush_cases own push
  · rw [he]
    exact .inl rfl
  · rw [he]
    change store = _ ∨ store = _
    rw [hs]
    split
    · rename_i hempty
      have hs' : (r.stored push.mutations).1 = r.store :=
        Store.apply_of_empty _ _ _ (isEmpty_iff.1 hempty)
      exact .inr (congrArg Store.advance hs')
    · exact .inl rfl

theorem applyPush_of_empty (push : Push) (hc : (r.applyPush own push).2.changes = Table.empty) :
    (r.applyPush own push).1 = r := by
  obtain ⟨_, he, -⟩ | ⟨_, _, _, record, -, -, -, he⟩ := r.applyPush_cases own push
  · rw [he] at hc ⊢
    have hs : (r.stored push.mutations).1 = r.store := Store.apply_of_empty _ _ _ hc
    rw [hs]
  · rw [he] at hc
    have hn := congrArg (get? · record.id) hc
    simp only [Changes.get?_put, if_true] at hn
    cases hn

theorem shift_applyPush (push : Push)
    (hc : (r.applyPush own push).2.changes ≠ Table.empty) :
    Shift r (r.applyPush own push).1 (r.applyPush own push).2.changes := by
  refine ⟨(r.applyPush_frame own push).1, ?_, ?_⟩
  · obtain ⟨_, he, -⟩ | ⟨_, _, store, _, -, hs, -, he⟩ := r.applyPush_cases own push
    · rw [he] at hc ⊢
      exact ⟨_, Store.follows_apply _ _ _ hc⟩
    · rw [he, hs]
      by_cases hd : (r.stored push.mutations).2.changes = Table.empty
      · have hs' : (r.stored push.mutations).1 = r.store := Store.apply_of_empty _ _ _ hd
        rw [if_pos (isEmpty_iff.2 hd), hs']
        exact ⟨_, Store.follows_advance _⟩
      · rw [if_neg fun he => hd (isEmpty_iff.1 he)]
        exact ⟨_, Store.follows_apply _ _ _ hd⟩
  · have hstored := r.stored_moment push.mutations
    obtain ⟨_, he, -⟩ | ⟨id, _, store, record, hid, -, hr, he⟩ := r.applyPush_cases own push
    · rw [he]
      exact hstored
    · have hrecords := r.applyPush_documents own push
      rw [he] at hrecords ⊢
      apply Table.ext
      intro k
      have hk := congrArg (get? · k) hstored
      simp only [Changes.get?_applyTo, Moment.get?_records] at hk ⊢
      have hrid : record.id = id := by rw [hr]
      change ((r.presence.insert id record).get? k).or (store.records.get? k) = _
      rw [hrecords, get?_insert, Changes.get?_put, hrid]
      by_cases hki : k = id
      · rw [if_pos hki, if_pos hki]
        rfl
      · rw [if_neg hki, if_neg hki]
        exact hk

variable (r own) in
theorem clock_le_applyPush (push : Push) : r.clock ≤ (r.applyPush own push).1.clock := by
  by_cases hc : (r.applyPush own push).2.changes = Table.empty
  · exact Nat.le_of_eq (congrArg clock (applyPush_of_empty push hc)).symm
  · exact Nat.le_of_lt (Nat.lt_of_lt_of_eq (Nat.lt_succ_self _) (shift_applyPush push hc).clock.symm)

theorem applyPush_records (push : Push) {id : RecordId} (hne : some id ≠ own) :
    (r.applyPush own push).1.moment.records.get? id =
      (r.presence.get? id).or ((r.stored push.mutations).1.records.get? id) := by
  obtain ⟨_, he, -⟩ | ⟨i, _, store, record, rfl, -, hr, he⟩ := r.applyPush_cases own push
  · rw [he, Moment.get?_records]
    rfl
  · have hne : id ≠ i := fun h => hne (congrArg some h)
    have hrecords := r.applyPush_documents (some i) push
    rw [he] at hrecords ⊢
    rw [Moment.get?_records]
    change ((r.presence.insert i record).get? id).or (store.records.get? id) = _
    rw [get?_insert, if_neg hne, hrecords]

theorem Placed.turnedDown_current (h : r.Placed) {mutations : List Mutation} {rejection : Rejection}
    (hr : rejection ∈ r.turnedDown own mutations) (hne : some rejection.recordId ≠ own) :
    rejection.current = (r.presence.get? rejection.recordId).or
      ((r.stored mutations).1.records.get? rejection.recordId) := by
  obtain hr | hr := List.mem_append.1 hr
  · obtain ⟨m, hm, rfl⟩ := List.mem_map.1 hr
    have hid : r.isPresenceId m.recordId = true := (List.mem_filter.1 hm).2
    rw [h.stored_document mutations hid, Option.or_none]
    exact if_neg hne.symm
  · obtain ⟨m, hm, hreason⟩ := List.mem_filterMap.1 hr
    obtain ⟨reason, -, rfl⟩ := Option.map_eq_some_iff.1 hreason
    have hid : ¬r.isPresenceId m.recordId = true := by
      simpa using (List.mem_filter.1 hm).2
    have hp : r.presence.get? m.recordId = none :=
      Option.eq_none_iff_forall_not_mem.2 fun v hv => hid (isPresenceId_of_presence hv)
    rw [hp, Option.none_or]
    rfl

theorem plain_of_not_turnedDown {mutations : List Mutation} {id : RecordId}
    (hno : ∀ rejection ∈ r.turnedDown own mutations, rejection.recordId ≠ id) :
    ∀ m ∈ mutations, m.recordId = id →
      r.isPresenceId m.recordId = false ∧ r.config.schema.refusal? m = none := by
  intro m hm hid
  have hp : r.isPresenceId m.recordId = false := by
    refine Bool.eq_false_iff.2 fun hp => ?_
    exact hno _ (List.mem_append_left _ (List.mem_map.2 ⟨m, List.mem_filter.2 ⟨hm, hp⟩, rfl⟩)) hid
  refine ⟨hp, Option.eq_none_iff_forall_not_mem.2 fun reason hr => ?_⟩
  have hr : r.config.schema.refusal? m = some reason := hr
  have hrejected : (⟨m.recordId, reason, (r.stored mutations).1.records.get? m.recordId⟩ :
      Rejection) ∈ (r.stored mutations).2.rejected := by
    refine List.mem_filterMap.2 ⟨m, List.mem_filter.2 ⟨hm, by simp [hp]⟩, ?_⟩
    rw [hr]
    rfl
  exact hno _ (List.mem_append_right _ hrejected) hid

variable (r own) in
def answer (push : Push) : PushResult :=
  ⟨push.pushId, (r.applyPush own push).1.clock, (r.applyPush own push).2.rejected⟩

theorem pushPresence_sessions (r : Room) (sessions : Table Session) (own : RecordId)
    (content : Content) (outcome : PushOutcome) :
    pushPresence { r with sessions } own content outcome =
      ({ (r.pushPresence own content outcome).1 with sessions },
        (r.pushPresence own content outcome).2) := by
  rw [pushPresence, pushPresence]
  cases r.config.schema.checkPresence content with
  | error reason => rfl
  | ok _ =>
    dsimp only
    by_cases h : ((r.presence.get? own).any fun record => record.content.same content) = true
    · rw [if_pos h, if_pos h]
    · rw [if_neg h, if_neg h]

theorem applyPush_touch (r : Room) (key : String) (now : Nat) (own : Option RecordId) (push : Push) :
    (r.modifySession key (·.touch now)).applyPush own push =
      ({ (r.applyPush own push).1 with sessions := (r.modifySession key (·.touch now)).sessions },
        (r.applyPush own push).2) := by
  have hid := r.isPresenceId_touch key now
  generalize hr : r.modifySession key (·.touch now) = r' at hid ⊢
  have hdocuments : r'.pushDocuments own push.mutations =
      ({ (r.pushDocuments own push.mutations).1 with sessions := r'.sessions },
        (r.pushDocuments own push.mutations).2) := by
    rw [pushDocuments, pushDocuments, reservedRejections, reservedRejections, hid, ← hr]
    rfl
  rw [applyPush, applyPush, hdocuments]
  cases push.presence with
  | none => rfl
  | some content =>
    cases own with
    | none => rfl
    | some own => exact pushPresence_sessions ..

theorem answer_touch (r : Room) (key : String) (now : Nat) (own : Option RecordId) (push : Push) :
    (r.modifySession key (·.touch now)).answer own push = r.answer own push := by
  rw [answer, answer, applyPush_touch]
  rfl

theorem rejected_of_refused {own : RecordId} {push : Push} {content : Content} {reason : Refusal}
    (hp : push.presence = some content)
    (hc : r.config.schema.checkPresence content = .error reason) :
    (r.answer (some own) push).rejected =
      r.turnedDown (some own) push.mutations ++ [⟨own, reason, r.presence.get? own⟩] := by
  rw [answer, r.applyPush_of_presence hp, pushPresence, hc]

theorem rejected_of_not_refused {own : RecordId} {push : Push}
    (h : ¬∃ content reason, push.presence = some content ∧
      r.config.schema.checkPresence content = .error reason) :
    (r.answer (some own) push).rejected = r.turnedDown (some own) push.mutations := by
  rw [answer]
  cases hp : push.presence with
  | none =>
    rw [applyPush, hp]
    rfl
  | some content =>
    rw [r.applyPush_of_presence hp, pushPresence]
    cases hc : r.config.schema.checkPresence content with
    | error reason => exact absurd ⟨content, reason, hp, hc⟩ h
    | ok _ =>
      dsimp only
      split <;> rfl

theorem stored_changes {push : Push} {id : RecordId}
    (hno : ∀ rejection ∈ (r.answer own push).rejected, rejection.recordId ≠ id) :
    (r.stored push.mutations).2.changes.get? id = (lastEdit? push.mutations id).bind fun e =>
      Store.effect? r.store.records (r.clock + 1) (id, e) := by
  have hplain := plain_of_not_turnedDown fun rejection hr =>
    hno rejection ((r.rejected_applyPush own push).1 rejection hr)
  have hl : (Store.lastEdits r.config.schema (r.plain push.mutations)).get? id =
      lastEdit? push.mutations id := by
    rw [Store.get?_lastEdits, plain, lastEdit?_filter, lastEdit?_filter]
    · intro m hm hid
      rw [(hplain m hm hid).1]
      rfl
    · intro m hm hid
      rw [(hplain m (List.mem_filter.1 hm).1 hid).2]
      rfl
  rw [← hl]
  exact Store.apply_changes ..

theorem presence_of_not_rejected {push : Push} {id : RecordId} {e : Edit}
    (he : lastEdit? push.mutations id = some e)
    (hno : ∀ rejection ∈ (r.answer own push).rejected, rejection.recordId ≠ id) :
    r.presence.get? id = none := by
  have hplain := plain_of_not_turnedDown fun rejection hr =>
    hno rejection ((r.rejected_applyPush own push).1 rejection hr)
  refine Option.eq_none_iff_forall_not_mem.2 fun v hv => ?_
  have hid := (hplain _ (mem_of_lastEdit? he) rfl).1
  rw [isPresenceId_of_presence hv] at hid
  cases hid

/-- The pusher learns from the result what has become of each id that it wrote. -/
theorem Sound.settles_applyPush (h : r.Sound) (push : Push) :
    Settles own r.moment (r.applyPush own push).1.moment push.mutations (r.answer own push) := by
  have hmem := r.rejected_applyPush own push
  refine ⟨rfl, fun rejection hr hne => ?_, fun id hne hno => ?_⟩
  · rw [applyPush_records push hne]
    exact h.placed.turnedDown_current (hmem.2 rejection hr hne) hne
  · rw [applyPush_records push hne, stored_records, stored_changes hno]
    cases he : lastEdit? push.mutations id with
    | none => exact (r.moment.get?_records id).symm
    | some e =>
      rw [presence_of_not_rejected he hno, Option.none_or]
      exact Store.agrees_effect ..

end Room

end RoomSync
