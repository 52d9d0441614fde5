import RoomSync.Proofs.Store.CatchUp
import RoomSync.Room

namespace RoomSync

open Table

/-- The records of a room at some clock. -/
structure Moment where
  clock : Nat
  documents : Table Record
  presence : Table Record
deriving DecidableEq, Inhabited

namespace Moment

def records (m : Moment) : Table Record := m.documents.union m.presence

/-- The documents and the presence of all sessions but one. -/
def view (m : Moment) (own : RecordId) : Table Record := m.documents.union (m.presence.erase own)

structure Sound (m : Moment) : Prop where
  documents_keyed : m.documents.KeyedBy Record.id
  presence_keyed : m.presence.KeyedBy Record.id
  documents_typed : ∀ id r, m.documents.get? id = some r → r.isPresence = false
  presence_typed : ∀ id r, m.presence.get? id = some r → r.isPresence = true
  disjoint : ∀ id r, m.presence.get? id = some r → m.documents.get? id = none

theorem get?_records (m : Moment) (id : RecordId) :
    m.records.get? id = (m.presence.get? id).or (m.documents.get? id) := get?_union ..

theorem get?_view (m : Moment) (own id : RecordId) :
    (m.view own).get? id =
      (if id = own then none else m.presence.get? id).or (m.documents.get? id) := by
  rw [view, get?_union, get?_erase]

theorem get?_view_of_ne (m : Moment) {own id : RecordId} (h : id ≠ own) :
    (m.view own).get? id = m.records.get? id := by
  rw [get?_view, if_neg h, get?_records]

theorem view_applyTo {m m' : Moment} {own : RecordId} {changes : Changes}
    (h : m'.records = changes.applyTo m.records) (hown : changes.get? own = none)
    (hm : m.documents.get? own = none) (hm' : m'.documents.get? own = none) :
    m'.view own = changes.applyTo (m.view own) := by
  apply Table.ext
  intro id
  rw [Changes.get?_applyTo]
  by_cases hid : id = own
  · subst hid
    simp [hown, get?_view, hm, hm']
  · rw [get?_view_of_ne _ hid, get?_view_of_ne _ hid, h, Changes.get?_applyTo]

end Moment

def Schema.KeepsPresence (s : Schema) : Prop :=
  ∃ t, s.types.get? presenceType = some t ∧ t.scope = .presence

theorem Schema.KeepsPresence.document {s : Schema} (h : s.KeepsPresence) {id : RecordId}
    {typeName : String} {content : Content}
    (hd : s.checkDocument id typeName content = .ok ()) : typeName ≠ presenceType := by
  rintro rfl
  obtain ⟨t, ht, hs⟩ := h
  rw [checkDocument] at hd
  split at hd
  · cases hd
  · simp only [ht, hs] at hd
    cases hd

@[simp] theorem Session.presenceId_touch (s : Session) (now : Nat) :
    (s.touch now).presenceId = s.presenceId := by
  obtain ⟨presenceId, info, state⟩ := s
  cases state <;> rfl

@[simp] theorem Session.isConnected_touch (s : Session) (now : Nat) :
    (s.touch now).isConnected = s.isConnected := by
  obtain ⟨presenceId, info, state⟩ := s
  cases state <;> rfl

/-- One session comes from another one by nothing but the loss of its connection and what happens in
its outbox. -/
structure Session.Fades (s s' : Session) : Prop where
  presenceId : s'.presenceId = s.presenceId
  waiting : ∀ w, s'.state = .awaitingConnect w → s.state = .awaitingConnect w
  socket : ∀ socket, s'.socket? = some socket → s.socket? = some socket

namespace Session.Fades

theorem refl (s : Session) : s.Fades s := ⟨rfl, fun _ h => h, fun _ h => h⟩

theorem trans {s s' s'' : Session} (h : s.Fades s') (h' : s'.Fades s'') : s.Fades s'' :=
  ⟨h'.presenceId.trans h.presenceId, fun w hw => h.waiting w (h'.waiting w hw),
    fun socket hs => h.socket socket (h'.socket socket hs)⟩

theorem mapConnected (s : Session) {f : Connected → Connected}
    (h : ∀ c, (f c).socket = c.socket) : s.Fades (s.mapConnected f) := by
  obtain ⟨presenceId, info, state⟩ := s
  cases state with
  | awaitingConnect w => exact refl _
  | awaitingRemoval since => exact refl _
  | connected c => exact ⟨rfl, nofun, fun socket hs => (congrArg some (h c)).symm.trans hs⟩

theorem cancel {σ : Type} [Host σ] (s : Session) (host : σ) (now : Nat) :
    s.Fades (s.cancel host now).1 := by
  obtain ⟨presenceId, info, state⟩ := s
  cases state with
  | awaitingConnect w => exact refl _
  | awaitingRemoval since => exact refl _
  | connected c => exact ⟨rfl, nofun, nofun⟩

end Session.Fades

namespace Room

def moment (r : Room) : Moment := ⟨r.clock, r.store.records, r.presence⟩

theorem connected?_eq_some {r : Room} {key : String} {c : Connected} :
    r.connected? key = some c ↔ ∃ s, r.session? key = some s ∧ s.state = .connected c := by
  rw [connected?, Option.bind_eq_some_iff]
  refine exists_congr fun s => and_congr_right fun _ => ?_
  rw [Session.connected?]
  split
  · rename_i c' hc
    rw [hc]
    exact ⟨fun h => by rw [Option.some.inj h], fun h => by rw [SessionState.connected.inj h]⟩
  · rename_i hno
    exact ⟨nofun, fun h => absurd h (hno c)⟩

theorem connected?_eq_none {r : Room} {key : String} (h : r.connected? key = none) {s : Session}
    (hs : r.session? key = some s) (c : Connected) : s.state ≠ .connected c := fun hc => by
  rw [connected?_eq_some.2 ⟨s, hs, hc⟩] at h
  cases h

theorem mem_connectedKeys {r : Room} {key : String} :
    key ∈ r.connectedKeys ↔ ∃ s, r.session? key = some s ∧ s.isConnected = true := by
  rw [connectedKeys, mem_keys]
  refine exists_congr fun s => ?_
  rw [get?_filter, Option.filter_eq_some_iff]
  rfl

theorem mem_connectedKeys_iff {r : Room} {key : String} :
    key ∈ r.connectedKeys ↔ ∃ c, r.connected? key = some c := by
  rw [mem_connectedKeys]
  constructor
  · rintro ⟨⟨presenceId, info, state⟩, hs, hc⟩
    cases state with
    | connected c => exact ⟨c, connected?_eq_some.2 ⟨_, hs, rfl⟩⟩
    | awaitingConnect w => cases hc
    | awaitingRemoval since => cases hc
  · rintro ⟨c, hc⟩
    obtain ⟨s, hs, hstate⟩ := connected?_eq_some.1 hc
    exact ⟨s, hs, by simp [Session.isConnected, Session.phase, hstate]⟩

structure Quiet (r r' : Room) : Prop where
  config : r'.config = r.config
  store : r'.store = r.store
  presence : r'.presence = r.presence
  sessions : ∀ key s', r'.session? key = some s' → ∃ s, r.session? key = some s ∧ s.Fades s'

namespace Quiet

variable {r r' r'' : Room}

theorem refl (r : Room) : r.Quiet r := ⟨rfl, rfl, rfl, fun _ s h => ⟨s, h, .refl s⟩⟩

theorem trans (h : r.Quiet r') (h' : r'.Quiet r'') : r.Quiet r'' := by
  refine ⟨h'.config.trans h.config, h'.store.trans h.store, h'.presence.trans h.presence, ?_⟩
  intro key s'' hs''
  obtain ⟨s', hs', hf'⟩ := h'.sessions key s'' hs''
  obtain ⟨s, hs, hf⟩ := h.sessions key s' hs'
  exact ⟨s, hs, hf.trans hf'⟩

end Quiet

structure Steady (r r' : Room) : Prop extends Quiet r r' where
  stays : ∀ key, r'.session? key = none → r.session? key = none

namespace Steady

variable {r r' r'' : Room}

instance : Coe (r.Steady r') (r.Quiet r') := ⟨toQuiet⟩

theorem refl (r : Room) : r.Steady r := ⟨.refl r, fun _ h => h⟩

theorem trans (h : r.Steady r') (h' : r'.Steady r'') : r.Steady r'' :=
  ⟨h.toQuiet.trans h'.toQuiet, fun key hn => h.stays key (h'.stays key hn)⟩

theorem session (h : r.Steady r') {key : String} {s : Session} (hs : r.session? key = some s) :
    ∃ s', r'.session? key = some s' ∧ s.Fades s' := by
  cases hs' : r'.session? key with
  | none =>
    rw [h.stays key hs'] at hs
    cases hs
  | some s' =>
    obtain ⟨t, ht, hf⟩ := h.sessions key s' hs'
    obtain rfl := Option.some.inj (hs.symm.trans ht)
    exact ⟨s', rfl, hf⟩

end Steady

structure Rests (r r' : Room) : Prop where
  config : r'.config = r.config
  store : r'.store = r.store
  presence : r'.presence = r.presence

theorem Rests.trans {r r' r'' : Room} (h : r.Rests r') (h' : r'.Rests r'') : r.Rests r'' :=
  ⟨h'.config.trans h.config, h'.store.trans h.store, h'.presence.trans h.presence⟩

theorem Rests.moment {r r' : Room} (h : r.Rests r') : r'.moment = r.moment := by
  rw [Room.moment, Room.moment, Room.clock, Room.clock, h.store, h.presence]

theorem Quiet.clock {r r' : Room} (h : r.Quiet r') : r'.clock = r.clock :=
  congrArg Store.clock h.store

theorem Quiet.rests {r r' : Room} (h : r.Quiet r') : r.Rests r' := ⟨h.config, h.store, h.presence⟩

theorem Quiet.moment {r r' : Room} (h : r.Quiet r') : r'.moment = r.moment := h.rests.moment

def without (r : Room) (key : String) : Room := { r with sessions := r.sessions.erase key }

theorem session?_without (r : Room) (key k : String) :
    (r.without key).session? k = if k = key then none else r.session? k := get?_erase ..

theorem quiet_without (r : Room) (key : String) : r.Quiet (r.without key) := by
  refine ⟨rfl, rfl, rfl, fun k s hs => ?_⟩
  rw [session?_without] at hs
  split at hs
  · cases hs
  · exact ⟨s, hs, .refl s⟩

def seated (r : Room) (key : String) (s : Session) : Room :=
  { r with sessions := r.sessions.insert key s }

theorem session?_seated (r : Room) (key k : String) (s : Session) :
    (r.seated key s).session? k = if k = key then some s else r.session? k := get?_insert ..

theorem steady_seated (r : Room) {key : String} {s s' : Session} (h : r.session? key = some s)
    (hf : s.Fades s') : r.Steady (r.seated key s') := by
  refine ⟨⟨rfl, rfl, rfl, fun k t ht => ?_⟩, fun k hk => ?_⟩
  · rw [session?_seated] at ht
    split at ht
    · rename_i hk
      obtain rfl := Option.some.inj ht
      exact ⟨s, hk ▸ h, hf⟩
    · exact ⟨t, ht, .refl t⟩
  · rw [session?_seated] at hk
    split at hk
    · cases hk
    · exact hk

theorem session?_modifySession (r : Room) (key k : String) (f : Session → Session) :
    (r.modifySession key f).session? k = if k = key then (r.session? k).map f else r.session? k :=
  get?_modify ..

theorem steady_modifySession (r : Room) (key : String) {f : Session → Session}
    (hf : ∀ s : Session, s.Fades (f s)) : r.Steady (r.modifySession key f) := by
  refine ⟨⟨rfl, rfl, rfl, fun k t ht => ?_⟩, fun k hk => ?_⟩
  · rw [session?_modifySession] at ht
    split at ht
    · obtain ⟨s, hs, rfl⟩ := Option.map_eq_some_iff.1 ht
      exact ⟨s, hs, hf s⟩
    · exact ⟨t, ht, .refl t⟩
  · rw [session?_modifySession] at hk
    split at hk
    · exact Option.map_eq_none_iff.1 hk
    · exact hk

theorem steady_touch (r : Room) (key : String) (now : Nat) :
    r.Steady (r.modifySession key (·.touch now)) :=
  r.steady_modifySession key fun s => .mapConnected s fun _ => rfl

/-- Documents, presence and sessions keep out of each other's way: the presence ids of sessions are
different and are no documents, and a session that waits for its handshake holds the id that it
would pass on. -/
structure Placed (r : Room) : Prop where
  documents_keyed : r.store.records.KeyedBy Record.id
  presence_keyed : r.presence.KeyedBy Record.id
  presence_typed : ∀ id record, r.presence.get? id = some record → record.isPresence = true
  disjoint : ∀ id record, r.presence.get? id = some record → r.store.records.get? id = none
  reserved : ∀ key s id, r.session? key = some s → s.presenceId = some id →
    r.store.records.get? id = none
  waiting : ∀ key s w, r.session? key = some s → s.state = .awaitingConnect w →
    w.resume.bind Resume.presenceId = s.presenceId
  apart : ∀ key key' s s' id, r.session? key = some s → r.session? key' = some s' →
    s.presenceId = some id → s'.presenceId = some id → key = key'

theorem Placed.quiet {r r' : Room} (h : r.Placed) (hq : r.Quiet r') : r'.Placed := by
  refine ⟨hq.store ▸ h.documents_keyed, hq.presence ▸ h.presence_keyed,
    hq.presence ▸ h.presence_typed, hq.presence ▸ hq.store ▸ h.disjoint,
    fun key s' id hs' hid => ?_, fun key s' w hs' hw => ?_,
    fun key key' s' t' id hs' ht' hid hid' => ?_⟩
  · obtain ⟨s, hs, hf⟩ := hq.sessions key s' hs'
    rw [hq.store]
    exact h.reserved key s id hs (hf.presenceId ▸ hid)
  · obtain ⟨s, hs, hf⟩ := hq.sessions key s' hs'
    rw [hf.presenceId]
    exact h.waiting key s w hs (hf.waiting w hw)
  · obtain ⟨s, hs, hf⟩ := hq.sessions key s' hs'
    obtain ⟨t, ht, hft⟩ := hq.sessions key' t' ht'
    exact h.apart key key' s t id hs ht (hf.presenceId ▸ hid) (hft.presenceId ▸ hid')

theorem placed_ofSnapshot (config : Config) (snapshot : Snapshot) :
    (ofSnapshot config snapshot).Placed := by
  have hpresence : ∀ id, (ofSnapshot config snapshot).presence.get? id = none := fun _ => rfl
  have hsession : ∀ key, (ofSnapshot config snapshot).session? key = none := fun _ => rfl
  refine ⟨Record.keyed_table snapshot.records, fun id _ h => ?_, fun id _ h => ?_, fun id _ h => ?_,
    fun key _ _ h => ?_, fun key _ _ h => ?_, fun key _ _ _ _ h => ?_⟩
  · cases (hpresence id).symm.trans h
  · cases (hpresence id).symm.trans h
  · cases (hpresence id).symm.trans h
  · cases (hsession key).symm.trans h
  · cases (hsession key).symm.trans h
  · cases (hsession key).symm.trans h

/-- A room is sound if its store is, if all is in its place, and if no document has the type of
presence records. -/
structure Sound (r : Room) : Prop where
  store : r.store.Sound
  moment : r.moment.Sound
  reserved : ∀ key s id, r.session? key = some s → s.presenceId = some id →
    r.store.records.get? id = none
  waiting : ∀ key s w, r.session? key = some s → s.state = .awaitingConnect w →
    w.resume.bind Resume.presenceId = s.presenceId
  apart : ∀ key key' s s' id, r.session? key = some s → r.session? key' = some s' →
    s.presenceId = some id → s'.presenceId = some id → key = key'

theorem Sound.placed {r : Room} (h : r.Sound) : r.Placed :=
  ⟨h.moment.documents_keyed, h.moment.presence_keyed, h.moment.presence_typed, h.moment.disjoint,
    h.reserved, h.waiting, h.apart⟩

theorem Placed.sound {r : Room} (h : r.Placed) (hstore : r.store.Sound)
    (htyped : ∀ id record, r.store.records.get? id = some record → record.isPresence = false) :
    r.Sound :=
  ⟨hstore, ⟨h.documents_keyed, h.presence_keyed, htyped, h.presence_typed, h.disjoint⟩,
    h.reserved, h.waiting, h.apart⟩

/-- One room follows another one by one move of the clock that makes the given changes. -/
structure Shift (r r' : Room) (changes : Changes) : Prop where
  config : r'.config = r.config
  follows : ∃ written, Store.Follows r.store r'.store written
  records : r'.moment.records = changes.applyTo r.moment.records

def Inherits (r r' : Room) : Prop :=
  ∀ key s' socket, r'.session? key = some s' → s'.socket? = some socket →
    ∃ s, r.session? key = some s ∧ s.socket? = some socket

theorem Quiet.inherits {r r' : Room} (h : r.Quiet r') : r.Inherits r' := by
  intro key s' socket hs' hsocket
  obtain ⟨s, hs, hf⟩ := h.sessions key s' hs'
  exact ⟨s, hs, hf.socket socket hsocket⟩

theorem Inherits.trans {r r' r'' : Room} (h : r.Inherits r') (h' : r'.Inherits r'') :
    r.Inherits r'' := by
  intro key s'' socket hs'' hsocket
  obtain ⟨s', hs', hsocket'⟩ := h' key s'' socket hs'' hsocket
  exact h key s' socket hs' hsocket'

theorem inherits_of_sessions {r r' : Room} (h : r'.sessions = r.sessions) : r.Inherits r' := by
  intro key s' socket hs' hsocket
  rw [session?, h] at hs'
  exact ⟨s', hs', hsocket⟩

theorem Rests.shift {r r' r'' : Room} {changes : Changes} (hq : r.Rests r')
    (h : Shift r' r'' changes) : Shift r r'' changes :=
  ⟨h.config.trans hq.config, hq.store ▸ h.follows, hq.moment ▸ h.records⟩

theorem Shift.rests {r r' r'' : Room} {changes : Changes} (h : Shift r r' changes)
    (hq : r'.Rests r'') : Shift r r'' changes :=
  ⟨hq.config.trans h.config, hq.store ▸ h.follows, hq.moment ▸ h.records⟩

theorem Shift.clock {r r' : Room} {changes : Changes} (h : Shift r r' changes) :
    r'.clock = r.clock + 1 :=
  have ⟨_, hf⟩ := h.follows
  hf.clock

def dropped (r : Room) : Option RecordId → Room
  | some id =>
    if r.presence.contains id then
      { r with presence := r.presence.erase id, store := r.store.advance }
    else r
  | none => r

theorem sessions_dropped (r : Room) (id? : Option RecordId) :
    (r.dropped id?).sessions = r.sessions := by
  cases id? with
  | none => rfl
  | some id =>
    rw [dropped]
    split <;> rfl

theorem session?_dropped (r : Room) (id? : Option RecordId) (key : String) :
    (r.dropped id?).session? key = r.session? key := by
  rw [session?, sessions_dropped, session?]

theorem config_dropped (r : Room) (id? : Option RecordId) :
    (r.dropped id?).config = r.config := by
  cases id? with
  | none => rfl
  | some id =>
    rw [dropped]
    split <;> rfl

theorem store_dropped (r : Room) (id? : Option RecordId) :
    (r.dropped id?).store = r.store ∨ (r.dropped id?).store = r.store.advance := by
  cases id? with
  | none => exact .inl rfl
  | some id =>
    rw [dropped]
    split
    · exact .inr rfl
    · exact .inl rfl

theorem documents_dropped (r : Room) (id? : Option RecordId) :
    (r.dropped id?).store.records = r.store.records := by
  obtain he | he := r.store_dropped id?
  · rw [he]
  · rw [he]
    rfl

theorem Rests.dropped {r r' : Room} (h : r.Rests r') (id? : Option RecordId) :
    (r.dropped id?).Rests (r'.dropped id?) := by
  cases id? with
  | none => exact h
  | some id =>
    rw [Room.dropped, Room.dropped, h.presence, h.store]
    split
    · exact ⟨h.config, rfl, rfl⟩
    · exact h

theorem dropped_filter (r : Room) (id? : Option RecordId) :
    r.dropped (id?.filter r.presence.contains) = r.dropped id? := by
  cases id? with
  | none => rfl
  | some id =>
    rw [Option.filter_some]
    split
    · rfl
    · exact (if_neg ‹_›).symm

theorem dropped_frame (r : Room) (id? : Option RecordId) :
    (r.dropped id?).clock = r.clock + (if id?.any r.presence.contains then 1 else 0) ∧
      (r.dropped id?).store = { r.store with clock := (r.dropped id?).clock } ∧
      (r.dropped id?).forbidden = r.forbidden := by
  cases id? with
  | none => exact ⟨rfl, rfl, rfl⟩
  | some id =>
    rw [Option.any_some, dropped]
    split <;> exact ⟨rfl, rfl, rfl⟩

theorem get?_presence_dropped (r : Room) (id? : Option RecordId) (id : RecordId) :
    (r.dropped id?).presence.get? id = if id? = some id then none else r.presence.get? id := by
  cases id? with
  | none => rfl
  | some old =>
    rw [dropped]
    split
    · refine (get?_erase ..).trans ?_
      simp only [Option.some.injEq, eq_comm]
    · rename_i hold
      split
      · rename_i he
        obtain rfl := Option.some.inj he
        exact Option.not_isSome_iff_eq_none.1 hold
      · rfl

theorem Placed.dropped {r : Room} (h : r.Placed) (id? : Option RecordId) :
    (r.dropped id?).Placed := by
  have hs := r.session?_dropped id?
  have hp : ∀ k v, (r.dropped id?).presence.get? k = some v → r.presence.get? k = some v := by
    intro k v hv
    cases id? with
    | none => exact hv
    | some id =>
      rw [Room.dropped] at hv
      split at hv
      · rw [get?_erase] at hv
        split at hv
        · cases hv
        · exact hv
      · exact hv
  refine ⟨?_, fun k v hv => h.presence_keyed k v (hp k v hv),
    fun k v hv => h.presence_typed k v (hp k v hv), fun k v hv => ?_, fun key s id hk hid => ?_,
    fun key s w hk => h.waiting key s w (hs key ▸ hk),
    fun key key' s s' id hk hk' => h.apart key key' s s' id (hs key ▸ hk) (hs key' ▸ hk')⟩
  · rw [documents_dropped]
    exact h.documents_keyed
  · rw [documents_dropped]
    exact h.disjoint k v (hp k v hv)
  · rw [documents_dropped]
    exact h.reserved key s id (hs key ▸ hk) hid

theorem Placed.shift_dropped {r : Room} (h : r.Placed) {id : RecordId}
    (hid : r.presence.contains id = true) :
    Shift r (r.dropped (some id)) (Table.empty.insert id .remove) := by
  rw [Room.dropped, if_pos hid]
  refine ⟨rfl, ⟨_, Store.follows_advance r.store⟩, ?_⟩
  apply Table.ext
  intro k
  obtain ⟨record, hr⟩ := contains_iff.1 hid
  have hd : r.store.records.get? id = none := h.disjoint id record hr
  rw [Changes.get?_applyTo, get?_insert, Moment.get?_records, Moment.get?_records]
  change ((r.presence.erase id).get? k).or (r.store.records.get? k) = _
  rw [get?_erase]
  by_cases hk : k = id
  · simp [hk, hd, Change.result]
  · simp only [if_neg hk]
    rfl

theorem Placed.dropped_cases {r : Room} (h : r.Placed) (id? : Option RecordId) :
    r.dropped id? = r ∨ ∃ id, id? = some id ∧ r.presence.contains id = true ∧
      Shift r (r.dropped id?) (Table.empty.insert id .remove) := by
  cases id? with
  | none => exact .inl rfl
  | some id =>
    by_cases hid : r.presence.contains id = true
    · exact .inr ⟨id, rfl, hid, h.shift_dropped hid⟩
    · exact .inl (if_neg hid)

theorem Placed.seated {r : Room} (h : r.Placed) {key : String} {s : Session}
    (hreserved : ∀ id, s.presenceId = some id → r.store.records.get? id = none)
    (hwaiting : ∀ w, s.state = .awaitingConnect w →
      w.resume.bind Resume.presenceId = s.presenceId)
    (hapart : ∀ id, s.presenceId = some id → ∀ key' s', key' ≠ key → r.session? key' = some s' →
      s'.presenceId ≠ some id) :
    (r.seated key s).Placed := by
  have hs : ∀ k t, (r.seated key s).session? k = some t →
      (k = key ∧ t = s) ∨ (k ≠ key ∧ r.session? k = some t) := by
    intro k t ht
    rw [session?_seated] at ht
    split at ht
    · rename_i hk
      exact .inl ⟨hk, (Option.some.inj ht).symm⟩
    · rename_i hk
      exact .inr ⟨hk, ht⟩
  refine ⟨h.documents_keyed, h.presence_keyed, h.presence_typed, h.disjoint,
    fun k t id ht hid => ?_, fun k t w ht hw => ?_, fun k k' t t' id ht ht' hid hid' => ?_⟩
  · obtain ⟨-, rfl⟩ | ⟨-, ht⟩ := hs k t ht
    · exact hreserved id hid
    · exact h.reserved k t id ht hid
  · obtain ⟨-, rfl⟩ | ⟨-, ht⟩ := hs k t ht
    · exact hwaiting w hw
    · exact h.waiting k t w ht hw
  · obtain ⟨rfl, rfl⟩ | ⟨hk, ho⟩ := hs k t ht
    · obtain ⟨rfl, -⟩ | ⟨hk', ho'⟩ := hs k' t' ht'
      · rfl
      · exact absurd hid' (hapart id hid k' t' hk' ho')
    · obtain ⟨rfl, rfl⟩ | ⟨-, ho'⟩ := hs k' t' ht'
      · exact absurd hid (hapart id hid' k t hk ho)
      · exact h.apart k k' t t' id ho ho' hid hid'

theorem presenceFault?_eq_none {r : Room} {key : String} {id : RecordId}
    (h : r.presenceFault? key id = none) :
    r.store.records.get? id = none ∧
      ∀ key' s, key' ≠ key → r.session? key' = some s → s.presenceId ≠ some id := by
  rw [presenceFault?] at h
  split at h
  · cases h
  · split at h
    · cases h
    · rename_i hd
      split at h
      · cases h
      · rename_i ht
        refine ⟨Option.not_isSome_iff_eq_none.1 hd, fun key' s hne hs hid => ht ?_⟩
        exact List.any_eq_true.2 ⟨(key', s), get?_eq_some_iff.1 hs, by simp [hne, hid]⟩

end Room

end RoomSync
