import Mathlib.Logic.ExistsUnique
import RoomSync.Proofs.Room.Run

namespace RoomSync

open Table

namespace Room

/-- Every presence record is that of a session, but for one id that may have lost its session. -/
def Owned (r : Room) (orphan : Option RecordId) : Prop :=
  ∀ id record, r.presence.get? id = some record → some id ≠ orphan →
    ∃ key s, r.session? key = some s ∧ s.presenceId = some id

variable {r r' : Room} {orphan : Option RecordId}

theorem Owned.owner (h : r.Owned none) {id : RecordId} {record : Record}
    (hr : r.presence.get? id = some record) :
    ∃ key s, r.session? key = some s ∧ s.presenceId = some id :=
  h id record hr (Option.some_ne_none id)

theorem Owned.steady (h : r.Owned orphan) (hs : r.Steady r') : r'.Owned orphan := by
  intro id record hr hne
  obtain ⟨key, s, hsession, hid⟩ := h id record (hs.presence ▸ hr) hne
  obtain ⟨s', hs', hf⟩ := hs.session hsession
  exact ⟨key, s', hs', hf.presenceId.trans hid⟩

theorem Owned.without (h : r.Owned none) {key : String} {s : Session}
    (hs : r.session? key = some s) : (r.without key).Owned s.presenceId := by
  intro id record hr hne
  obtain ⟨k, t, ht, hid⟩ := h.owner hr
  have hk : k ≠ key := by
    rintro rfl
    rw [hs] at ht
    cases ht
    exact hne hid.symm
  exact ⟨k, t, by rw [session?_without, if_neg hk, ht], hid⟩

theorem Owned.dropped (h : r.Owned orphan) : (r.dropped orphan).Owned none := by
  intro id record hr _
  simp only [session?_dropped]
  cases orphan with
  | none => exact h.owner hr
  | some gone =>
    rw [Room.dropped] at hr
    split at hr
    · rw [get?_erase] at hr
      split at hr
      · cases hr
      · rename_i hne
        exact h id record hr fun he => hne (Option.some.inj he)
    · rename_i habsent
      refine h id record hr fun he => habsent ?_
      exact contains_iff.2 ⟨record, Option.some.inj he ▸ hr⟩

theorem Owned.seated (h : r.Owned orphan) {key : String} {s : Session}
    (horphan : ∀ id, orphan = some id → s.presenceId = some id)
    (hold : ∀ t id, r.session? key = some t → t.presenceId = some id → s.presenceId = some id) :
    (r.seated key s).Owned none := by
  intro id record hr _
  by_cases ho : orphan = some id
  · exact ⟨key, s, by rw [session?_seated, if_pos rfl], horphan id ho⟩
  · obtain ⟨k, t, ht, hid⟩ := h id record hr (Ne.symm ho)
    by_cases hk : k = key
    · subst hk
      exact ⟨k, s, by rw [session?_seated, if_pos rfl], hold t id ht hid⟩
    · exact ⟨k, t, by rw [session?_seated, if_neg hk, ht], hid⟩

theorem Owned.applyPush (h : r.Owned none) {key : String} {s : Session}
    (hs : r.session? key = some s) (push : Push) :
    (r.applyPush s.presenceId push).1.Owned none := by
  intro id record hr _
  obtain ⟨_, he, -⟩ | ⟨own, _, _, _, hown, -, -, he⟩ := r.applyPush_cases s.presenceId push
  · rw [he] at hr ⊢
    exact h.owner hr
  · rw [he] at hr ⊢
    have hr : (r.presence.insert own _).get? id = some record := hr
    rw [get?_insert] at hr
    split at hr
    · rename_i hid
      exact ⟨key, s, hs, hid ▸ hown⟩
    · exact h.owner hr

/-- What holds of the ids in a room. -/
structure OneNamespace (r : Room) : Prop where
  apart : ∀ key key' s s' id, r.session? key = some s → r.session? key' = some s' →
    s.presenceId = some id → s'.presenceId = some id → key = key'
  presence : ∀ id record, r.presence.get? id = some record →
    record.id = id ∧ record.typeName = presenceType ∧
      ∃! key, ∃ s, r.session? key = some s ∧ s.presenceId = some id
  records : ∀ id record, r.presence.get? id = some record →
    r.store.get? id = none ∧ ∀ document ∈ r.store.records.values, document.id ≠ id
  reserved : ∀ key s id, r.session? key = some s → s.presenceId = some id →
    r.store.get? id = none ∧ ∀ document ∈ r.store.records.values, document.id ≠ id

theorem Placed.oneNamespace (hp : r.Placed) (ho : r.Owned none) : r.OneNamespace := by
  have hvalues : ∀ id, r.store.records.get? id = none →
      ∀ document ∈ r.store.records.values, document.id ≠ id := by
    rintro _ hnone document hd rfl
    obtain ⟨key, hk⟩ := mem_values.1 hd
    rw [hp.documents_keyed key document hk, hk] at hnone
    cases hnone
  refine ⟨hp.apart, fun id record hr => ⟨hp.presence_keyed id record hr, ?_, ?_⟩,
    fun id record hr => ?_, fun key s id hs hid => ?_⟩
  · simpa [Record.isPresence] using hp.presence_typed id record hr
  · obtain ⟨key, s, hs, hid⟩ := ho.owner hr
    refine ⟨key, ⟨s, hs, hid⟩, ?_⟩
    rintro key' ⟨s', hs', hid'⟩
    exact hp.apart key' key s' s id hs' hs hid' hid
  · have hnone := hp.disjoint id record hr
    exact ⟨hnone, hvalues id hnone⟩
  · have hnone := hp.reserved key s id hs hid
    exact ⟨hnone, hvalues id hnone⟩

end Room

namespace LiveRoom

open Room

variable {σ : Type} [Host σ] {l l' : LiveRoom σ} {now : Nat} {deed : Deed}

theorem owned_succeed (hp : l.room.Placed) (h : l.room.Owned none) (key : String)
    (socket : SocketId) (info : Content) (now : Nat) :
    (l.succeed key socket info now).room.Owned none := by
  unfold succeed
  split
  · rename_i hs
    refine h.seated nofun fun t id ht => ?_
    rw [hs] at ht
    cases ht
  · rename_i old hold
    have hseat : ∀ info,
        (l.room.seated key (.start socket now old.successor info)).Owned none := by
      refine fun info => h.seated nofun fun t id ht hid => ?_
      obtain rfl := Option.some.inj (hold.symm.trans ht)
      exact (successor_presenceId hp hold).trans hid
    cases old.socket? with
    | none => exact hseat _
    | some previous => exact hseat _

/-- A handshake either keeps the presence id that the session has taken over, or the record under
that id is dropped. -/
theorem owned_accept (h : l.room.Owned none) {key : String} {s : Session}
    (hs : l.room.session? key = some s) (waiting : Waiting) (request : ConnectRequest)
    (now : Nat) : (l.accept key s waiting request now).1.room.Owned none := by
  let id? := s.presenceId.filter fun old => old ≠ request.presenceId
  have hquiet : ((l.room.without key).dropped id?).Steady (l.readied key s request now).room :=
    steady_dropPresence? (l.forget key) id? now
  have hvacant : (l.readied key s request now).room.session? key = none := by
    refine Option.eq_none_iff_forall_not_mem.2 fun t ht => ?_
    obtain ⟨t', ht', -⟩ := hquiet.sessions key t ht
    rw [session?_dropped, session?_without, if_pos rfl] at ht'
    cases ht'
  have hready : ∃ orphan, (l.readied key s request now).room.Owned orphan ∧
      ∀ id, orphan = some id → id = request.presenceId := by
    have hwithout := h.without hs
    by_cases hid : s.presenceId = id?
    · rw [hid] at hwithout
      exact ⟨none, hwithout.dropped.steady hquiet, nofun⟩
    · -- The session goes on under the id that it had, so nothing is dropped.
      obtain ⟨own, hown, hreq⟩ : ∃ own, s.presenceId = some own ∧ own = request.presenceId := by
        cases hown : s.presenceId with
        | none => simp [id?, hown] at hid
        | some own => exact ⟨own, rfl, by simpa [id?, hown, Option.filter] using hid⟩
      have hnone : id? = none := by simp [id?, hown, hreq]
      rw [hnone] at hquiet
      exact ⟨_, hwithout.steady hquiet, fun id he => Option.some.inj (he.symm.trans hown) ▸ hreq⟩
  obtain ⟨orphan, ho, hreq⟩ := hready
  rw [accept_eq]
  refine Owned.steady (Owned.seated ho (fun id he => ?_) fun t id ht => ?_)
    (steady_welcome _ key s waiting request now)
  · exact congrArg some (hreq id he).symm
  · rw [hvacant] at ht
    cases ht

theorem Turn.owned (h : Turn now deed l l') (hp : l.room.Placed) (ho : l.room.Owned none) :
    l'.room.Owned none := by
  cases h with
  | note => exact ho
  | touch _ key => exact ho.steady (l.room.steady_touch key now)
  | tell => exact ho
  | cancel _ key cause => exact ho.steady (l.steady_cancel key cause now)
  | pong _ key => exact ho.steady (l.steady_pong key now)
  | flush _ key => exact ho.steady (l.steady_flushSession now key)
  | opens _ key socket info => exact owned_succeed hp ho key socket info now
  | remove _ key cause =>
    cases hs : l.room.session? key with
    | none => rwa [LiveRoom.remove, hs]
    | some s => exact (ho.without hs).dropped.steady (l.steady_remove hs cause now)
  | @greets _ key s waiting request hs _ _ => exact owned_accept ho hs waiting request now
  | @serves _ key s push hs _ =>
    exact (ho.applyPush hs push).steady (l.steady_serve key s.presenceId push now)

/-- Whatever the host does with a room and whatever comes in, whether it is accepted, refused or
fails. -/
theorem oneNamespace_run (config : Config) (snapshot : Snapshot) (host : σ) (calls : List Call) :
    (run ⟨.ofSnapshot config snapshot, host⟩ calls).room.OneNamespace := by
  have hstart : (Room.ofSnapshot config snapshot).Placed ∧
      (Room.ofSnapshot config snapshot).Owned none :=
    ⟨⟨Record.keyed_table snapshot.records, nofun, nofun, nofun, nofun, nofun, nofun⟩, nofun⟩
  obtain ⟨hp, ho⟩ := run_keeps (P := fun l => l.room.Placed ∧ l.room.Owned none)
    (l := ⟨.ofSnapshot config snapshot, host⟩)
    (fun _ _ _ _ ht h => ⟨ht.placed h.1, ht.owned h.1 h.2⟩) hstart calls
  exact hp.oneNamespace ho

/-- A new room is one that goes on from nothing. -/
example (config : Config) : Room.new config = .ofSnapshot config ⟨0, []⟩ := rfl

end LiveRoom

end RoomSync
