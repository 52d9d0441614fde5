import RoomSync.Proofs.Room.Admission
import RoomSync.Proofs.Room.Past
import RoomSync.Proofs.Store.Batch
import RoomSync.Replica

namespace RoomSync

open Table Room

/-- A room that a host starts with under these settings: a new one, or one that goes on from the
snapshot of an earlier one. -/
inductive Config.Begun (config : Config) : Room → Prop
  | new : Begun config (.new config)
  | restored {σ : Type} [Host σ] {start : Room} (host : σ) (calls : List LiveRoom.Call) :
      Begun config start →
      Begun config (.ofSnapshot config (LiveRoom.run ⟨start, host⟩ calls).room.snapshot)

def Config.Closed (config : Config) : Prop :=
  config.maxSessions = 0 ∨ config.schema.version < config.schema.minVersion

/-- No document of the room passes for presence: none is stored, and so none is in a snapshot, a
replica lists all of them, and it keeps those that it has when it catches up. -/
structure Room.Sheltered (r : Room) : Prop where
  stored : ∀ id record, r.store.get? id = some record → record.typeName ≠ presenceType
  snapshot : ∀ record ∈ r.snapshot.records, record.typeName ≠ presenceType
  mirrored : ∀ own, Replica.documents ⟨r.clock, r.moment.view own⟩ = r.store.records.values
  listed : ∀ (replica : Replica) id record, r.store.get? id = some record →
    replica.get? id = some record → record ∈ replica.documents
  kept : ∀ (replica next : Replica) patch id record, r.store.get? id = some record →
    replica.get? id = some record → patch.changes.get? id = none →
    replica.catchUp patch = .ok next → next.get? id = some record

def LiveRoom.TurnsDown {σ : Type} [Host σ] (l : LiveRoom σ) : Prop :=
  ∀ key push now result, (l.receivePush key push now).2 = .ok result →
    ∀ id content, ⟨id, .upsert presenceType content⟩ ∈ push.mutations → id ≠ "" →
      l.room.isPresenceId id = false →
      ∃ current, ⟨id, .wrongScope presenceType, current⟩ ∈ result.rejected

/-- Whatever is done with a room under these settings, no document of it passes for presence. -/
def Config.Shelters (config : Config) : Prop :=
  ∀ {start : Room}, config.Begun start → ∀ {σ : Type} [Host σ] (host : σ)
    (calls : List LiveRoom.Call), (LiveRoom.run ⟨start, host⟩ calls).room.Sheltered ∧
      (LiveRoom.run ⟨start, host⟩ calls).TurnsDown

namespace Schema

theorem checkField_ne_wrongScope (content : Content) (field : Field) (typeName : String) :
    RecordType.checkField content field ≠ .error (.wrongScope typeName) := by
  rw [RecordType.checkField]
  split
  · exact nofun
  · split <;> exact nofun

theorem check_ne_wrongScope (t : RecordType) (content : Content) (typeName : String) :
    t.check content ≠ .error (.wrongScope typeName) := by
  have hfields : ∀ fields : List Field,
      fields.forM (RecordType.checkField content) ≠ .error (.wrongScope typeName) := by
    intro fields
    induction fields with
    | nil => exact nofun
    | cons field rest ih =>
      have hfield := checkField_ne_wrongScope content field typeName
      change (RecordType.checkField content field >>= fun _ => rest.forM _) ≠ _
      cases hf : RecordType.checkField content field with
      | ok _ => exact ih
      | error reason =>
        rw [hf] at hfield
        exact hfield
  unfold RecordType.check
  split
  · exact hfields _
  · exact nofun

theorem checkDocument_eq_wrongScope {s : Schema} {id : RecordId} {typeName : String}
    {content : Content} (hid : id ≠ "") :
    s.checkDocument id typeName content = .error (.wrongScope typeName) ↔
      ∃ t, s.types.get? typeName = some t ∧ t.scope = .presence := by
  rw [checkDocument, if_neg hid]
  cases ht : s.types.get? typeName with
  | none => simp
  | some t =>
    cases hs : t.scope with
    | presence => simp [hs]
    | document => simpa [hs] using check_ne_wrongScope t content typeName

end Schema

namespace Room

variable {r : Room}

theorem Placed.keyed_view (h : r.Placed) (own : RecordId) :
    (r.moment.view own).KeyedBy Record.id := by
  intro id record hr
  rw [Moment.get?_view, Option.or_eq_some_iff] at hr
  obtain hp | ⟨-, hd⟩ := hr
  · split at hp
    · cases hp
    · exact h.presence_keyed id record hp
  · exact h.documents_keyed id record hd

theorem Placed.filter_view (h : r.Placed)
    (htyped : ∀ id record, r.store.get? id = some record → record.isPresence = false)
    (own : RecordId) :
    (r.moment.view own).filter (fun _ record => !record.isPresence) = r.store.records := by
  apply Table.ext
  intro id
  rw [get?_filter, Moment.get?_view]
  change ((if id = own then none else r.presence.get? id).or (r.store.records.get? id)).filter _ = _
  cases hp : r.presence.get? id with
  | some record =>
    have hnone := h.disjoint id record hp
    have htype := h.presence_typed id record hp
    split <;> simp [hnone, htype, Option.filter]
  | none =>
    rw [ite_self, Option.none_or]
    cases hd : r.store.records.get? id with
    | none => rfl
    | some record => simp [Option.filter, htyped id record hd]

theorem Placed.sheltered (h : r.Placed)
    (htyped : ∀ id record, r.store.get? id = some record → record.isPresence = false) :
    r.Sheltered := by
  have hne : ∀ id record, r.store.get? id = some record → record.typeName ≠ presenceType :=
    fun id record hr => by simpa [Record.isPresence] using htyped id record hr
  refine ⟨hne, fun record hr => ?_, fun own => ?_, fun replica id record hr hreplica => ?_,
    fun replica next patch id record hr hreplica hpatch hnext => ?_⟩
  · obtain ⟨id, hid⟩ := mem_values.1 hr
    exact hne id record hid
  · rw [← h.filter_view htyped own]
    exact values_filter _ (fun _ record => !record.isPresence) Record.id (h.keyed_view own)
  · exact List.mem_filter.2 ⟨mem_values.2 ⟨id, hreplica⟩, by simp [htyped id record hr]⟩
  · rw [Replica.catchUp] at hnext
    split at hnext
    · cases hnext
    · obtain rfl := Except.ok.inj hnext
      change (patch.changes.applyTo _).get? id = _
      rw [Changes.get?_applyTo, hpatch, Option.elim_none, get?_filter,
        show replica.records.get? id = some record from hreplica]
      simp [Option.filter, htyped id record hr]

variable {own : Option RecordId} {mutations : List Mutation} {id : RecordId}

variable (own) in
theorem mem_turnedDown {edit : Edit} {reason : Refusal} (hm : ⟨id, edit⟩ ∈ mutations)
    (hid : r.isPresenceId id = false)
    (hreason : r.config.schema.refusal? ⟨id, edit⟩ = some reason) :
    ∃ current, ⟨id, reason, current⟩ ∈ r.turnedDown own mutations := by
  refine ⟨(r.stored mutations).1.records.get? id, List.mem_append_right _ ?_⟩
  refine List.mem_filterMap.2 ⟨⟨id, edit⟩, List.mem_filter.2 ⟨hm, by simp [hid]⟩, ?_⟩
  rw [hreason]
  rfl

theorem refusal?_of_turnedDown {typeName : String} {current : Option Record}
    (h : ⟨id, .wrongScope typeName, current⟩ ∈ r.turnedDown own mutations) :
    ∃ m ∈ mutations, r.config.schema.refusal? m = some (.wrongScope typeName) := by
  obtain h | h := List.mem_append.1 h
  · obtain ⟨m, -, he⟩ := List.mem_map.1 h
    cases (Rejection.mk.inj he).2.1
  · obtain ⟨m, hm, he⟩ := List.mem_filterMap.1 h
    obtain ⟨reason, hreason, he⟩ := Option.map_eq_some_iff.1 he
    exact ⟨m, List.mem_of_mem_filter hm, (Rejection.mk.inj he).2.1 ▸ hreason⟩

theorem Admits.connected?_eq_none (h : r.Admits) (hclosed : r.config.Closed) (key : String) :
    r.connected? key = none := by
  refine Option.eq_none_iff_forall_not_mem.2 fun c hc => ?_
  have hlength := List.length_pos_of_mem (mem_connectedKeys_iff.2 ⟨c, hc⟩)
  have hcount := h.count
  have hsupported := h.supported key c hc
  obtain hclosed | hclosed := hclosed <;> omega

end Room

namespace LiveRoom

variable {σ : Type} [Host σ] {l l' : LiveRoom σ}

theorem receivePush_ne_ok {key : String} (hnone : l.room.connected? key = none) (push : Push)
    (now : Nat) (result : PushResult) : (l.receivePush key push now).2 ≠ .ok result := by
  intro h
  obtain ⟨s, hs, hc, -⟩ := made_of_receivePush h
  obtain ⟨c, hc⟩ := mem_connectedKeys_iff.1 (mem_connectedKeys.2 ⟨s, hs, hc⟩)
  cases hnone.symm.trans hc

theorem turnsDown_of_keepsPresence (hk : l.room.config.schema.KeepsPresence) : l.TurnsDown := by
  intro key push now result hresult id content hm hid hfree
  obtain ⟨s, -, -, -, rfl, -⟩ := made_of_receivePush hresult
  have hreason : l.room.config.schema.refusal? ⟨id, .upsert presenceType content⟩ =
      some (.wrongScope presenceType) :=
    Store.refusal?_eq_some_iff.2 ⟨_, _, rfl, (Schema.checkDocument_eq_wrongScope hid).2 hk⟩
  obtain ⟨current, hdown⟩ := mem_turnedDown s.presenceId hm hfree hreason
  exact ⟨current, (l.room.rejected_applyPush s.presenceId push).1 _ hdown⟩

theorem turnsDown_of_closed (h : l.room.Admits) (hclosed : l.room.config.Closed) :
    l.TurnsDown := by
  intro key push now result hresult
  exact absurd hresult (receivePush_ne_ok (h.connected?_eq_none hclosed key) push now result)

theorem Turns.documents {now : Nat} {ms : List Moment} (h : Turns now ms l l') :
    l'.room.store.records = l.room.store.records := by
  induction h with
  | refl l => rfl
  | step ht _ ih => exact ih.trans (ht.documents nofun)

theorem documents_perform (hnone : ∀ key, l.room.connected? key = none) (call : Call) :
    (l.perform call).room.store.records = l.room.store.records := by
  by_cases hdeed : ∃ key push, call.operation.deed = .serves key push
  · obtain ⟨key, push, hdeed⟩ := hdeed
    obtain ⟨-, result, hresult⟩ | he | ⟨socket, msg, cause, he⟩ := l.serves_or_repels call hdeed
    · exact absurd hresult (receivePush_ne_ok (hnone key) push call.now result)
    · rw [he]
    · rw [he]
      have hturn : Turn call.now .inner (l.tell socket msg) _ := .remove _ key cause
      exact hturn.documents nofun
  · obtain ⟨_, hepisode, -⟩ := l.episode_perform call
    cases hepisode with
    | undone hturns => exact hturns.documents
    | done hturns hturn =>
      exact (hturn.documents fun key push he => hdeed ⟨key, push, he⟩).trans hturns.documents

theorem documents_run (h : l.room.Admits) (hclosed : l.room.config.Closed) (calls : List Call) :
    (l.run calls).room.store.records = l.room.store.records := by
  induction calls generalizing l with
  | nil => rfl
  | cons call rest ih =>
    have hconfig := l.config_perform call
    exact (ih (admits_perform h call) (hconfig ▸ hclosed)).trans
      (documents_perform (h.connected?_eq_none hclosed) call)

end LiveRoom

namespace Config.Begun

variable {config : Config} {start : Room} {σ : Type} [Host σ]

theorem eq_ofSnapshot (h : config.Begun start) : ∃ snapshot, start = .ofSnapshot config snapshot := by
  cases h with
  | new => exact ⟨⟨0, []⟩, rfl⟩
  | restored _ _ _ => exact ⟨_, rfl⟩

theorem admits (h : config.Begun start) : start.Admits ∧ start.config = config := by
  obtain ⟨snapshot, rfl⟩ := h.eq_ofSnapshot
  exact ⟨⟨Nat.zero_le _, nofun⟩, rfl⟩

theorem founded (h : config.Begun start) (hk : config.schema.KeepsPresence) : Founded start := by
  induction h with
  | new => exact .new hk
  | restored host calls _ ih => exact .restored host calls ih hk

theorem placed_run (h : config.Begun start) (host : σ) (calls : List LiveRoom.Call) :
    (LiveRoom.run ⟨start, host⟩ calls).room.Placed := by
  obtain ⟨snapshot, rfl⟩ := h.eq_ofSnapshot
  have hstart : (Room.ofSnapshot config snapshot).Placed :=
    ⟨Record.keyed_table snapshot.records, nofun, nofun, nofun, nofun, nofun, nofun⟩
  exact LiveRoom.run_keeps (P := fun l => l.room.Placed) (fun _ _ _ _ ht hp => ht.placed hp)
    hstart calls

theorem documents_eq_empty (h : config.Begun start) (hclosed : config.Closed) :
    start.store.records = Table.empty := by
  induction h with
  | new => rfl
  | @restored _ _ start host calls hstart ih =>
    obtain ⟨hadmits, hconfig⟩ := hstart.admits
    have hrun : (LiveRoom.run ⟨start, host⟩ calls).room.store.records = Table.empty :=
      (LiveRoom.documents_run hadmits (hconfig ▸ hclosed) calls).trans ih
    change Record.table (LiveRoom.run ⟨start, host⟩ calls).room.store.records.values = _
    rw [hrun]
    rfl

end Config.Begun

namespace Config

variable {config : Config}

theorem shelters_of_keepsPresence (hk : config.schema.KeepsPresence) : config.Shelters := by
  intro start hstart σ _ host calls
  have hchronicle := LiveRoom.chronicle_run (l := ⟨start, host⟩) (hstart.founded hk).chronicle calls
  exact ⟨hchronicle.sound.placed.sheltered hchronicle.sound.moment.documents_typed,
    LiveRoom.turnsDown_of_keepsPresence hchronicle.keeps⟩

theorem shelters_of_closed (hclosed : config.Closed) : config.Shelters := by
  intro start hstart σ _ host calls
  obtain ⟨hadmits, hconfig⟩ := hstart.admits
  obtain ⟨hadmits', hconfig'⟩ := LiveRoom.admits_run (l := ⟨start, host⟩) hadmits calls
  have hdocuments : (LiveRoom.run ⟨start, host⟩ calls).room.store.records = Table.empty :=
    (LiveRoom.documents_run hadmits (hconfig ▸ hclosed) calls).trans
      (hstart.documents_eq_empty hclosed)
  refine ⟨(hstart.placed_run host calls).sheltered fun id record hr => ?_,
    LiveRoom.turnsDown_of_closed hadmits' (hconfig'.trans hconfig ▸ hclosed)⟩
  rw [Store.get?, hdocuments] at hr
  cases hr

theorem exists_connected (hopen : ¬config.Closed) :
    ∃ calls c, (LiveRoom.run (⟨.new config, ()⟩ : LiveRoom Unit) calls).room =
      ((Room.new config).note (.connected "a" false)).seated "a"
        ⟨some "presence:a", .null, .connected c⟩ := by
  obtain ⟨hroom, hversion⟩ := not_or.1 hopen
  let request : ConnectRequest := ⟨"a", "presence:a", ⟨config.schema.version, []⟩, none⟩
  let l : LiveRoom Unit := (⟨.new config, ()⟩ : LiveRoom Unit).openSocket "a" 0 .null 0
  let waiting : Waiting := ⟨0, 0, none⟩
  have hadmission : l.room.admission "a" request = .ok () := by
    have hclient : config.schema.checkClient request.schema = .ok () := by
      rw [Schema.checkClient, if_neg (Nat.lt_irrefl _), if_neg hversion]
    have hfree : "a" ∉ l.room.forbidden := List.not_mem_nil
    rw [Room.admission, if_neg hfree, show l.room.config = config from rfl, hclient]
    exact if_neg (show ¬config.maxSessions ≤ 0 by omega)
  have hadmitted : l.Admitted "a" request ⟨none, .null, .awaitingConnect waiting⟩ waiting :=
    ⟨rfl, rfl, rfl, hadmission, rfl⟩
  refine ⟨[⟨0, .openSocket "a" 0 .null⟩, ⟨0, .connect "a" request⟩],
    waiting.accept request.schema 0 0, ?_⟩
  change (l.connect "a" request 0).1.room = _
  rw [hadmitted.connect]
  rfl

theorem keepsPresence_of_shelters (h : config.Shelters) (hopen : ¬config.Closed) :
    config.schema.KeepsPresence := by
  obtain ⟨calls, c, hroom⟩ := exists_connected hopen
  let l := LiveRoom.run (⟨.new config, ()⟩ : LiveRoom Unit) calls
  let push : Push := ⟨"a", 1, [⟨"n", .upsert presenceType (.object [])⟩], none⟩
  let r := l.room.modifySession "a" (·.touch 0)
  have hconfig : l.room.config = config := congrArg Room.config hroom
  have hs : l.room.session? "a" = some ⟨some "presence:a", .null, .connected c⟩ :=
    congrArg (Room.session? · "a") hroom
  have hfree : l.room.isPresenceId "n" = false := congrArg (Room.isPresenceId · "n") hroom
  obtain ⟨current, hrejected⟩ := (h .new () calls).2 "a" push 0 _
    (congrArg Prod.snd (l.receivePush_of_connected 0 hs rfl rfl)) "n" _ List.mem_cons_self
    (by decide) hfree
  have hdown := (r.rejected_applyPush (some "presence:a") push).2 _ hrejected
    (show some "n" ≠ some "presence:a" by decide)
  obtain ⟨m, hm, hreason⟩ := refusal?_of_turnedDown hdown
  obtain rfl := List.mem_singleton.1 hm
  obtain ⟨_, _, he, hc⟩ := Store.refusal?_eq_some_iff.1 hreason
  obtain ⟨rfl, rfl⟩ := Edit.upsert.inj he
  exact hconfig ▸ (Schema.checkDocument_eq_wrongScope (by decide)).1 hc

theorem shelters_iff : config.Shelters ↔ config.schema.KeepsPresence ∨ config.Closed := by
  refine ⟨fun h => ?_, fun h => ?_⟩
  · by_cases hclosed : config.Closed
    · exact .inr hclosed
    · exact .inl (keepsPresence_of_shelters h hclosed)
  · obtain hk | hclosed := h
    · exact shelters_of_keepsPresence hk
    · exact shelters_of_closed hclosed

end Config

end RoomSync
