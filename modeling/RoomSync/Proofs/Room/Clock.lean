import RoomSync.Proofs.Room.Past

namespace RoomSync

open Table

theorem Store.Follows.stamp {s next : Store} {changes : Changes} (hf : Follows s next changes)
    {id : RecordId} {record : Record} (h : next.records.get? id = some record) :
    s.records.get? id = some record ∨ record.stamp = next.clock := by
  rw [hf.get?_records] at h
  rcases hc : changes.get? id with _ | _ | _
  · rw [hc] at h
    exact .inl h
  · rw [hc] at h
    obtain rfl := Option.some.inj h
    exact .inr (hf.stamped id _ hc).2
  · rw [hc] at h
    cases h

namespace Room

/-- Every record of the second table is in the first one, or was stamped between two clocks. -/
def Renews (clock clock' : Nat) (t t' : Table Record) : Prop :=
  ∀ id record, t'.get? id = some record →
    t.get? id = some record ∨ (clock < record.stamp ∧ record.stamp ≤ clock')

/-- The clock of one room dates all that another one has more or else. -/
structure Dates (r r' : Room) : Prop where
  clock : r.clock ≤ r'.clock
  same : r.clock = r'.clock → r.store = r'.store ∧ r.presence = r'.presence
  documents : Renews r.clock r'.clock r.store.records r'.store.records
  presence : Renews r.clock r'.clock r.presence r'.presence

theorem Renews.trans {clock clock' clock'' : Nat} {t t' t'' : Table Record}
    (hle : clock ≤ clock') (hle' : clock' ≤ clock'') (h : Renews clock clock' t t')
    (h' : Renews clock' clock'' t' t'') : Renews clock clock'' t t'' := by
  intro id record hr
  obtain hr | ⟨hlt, hstamp⟩ := h' id record hr
  · exact (h id record hr).imp_right fun ⟨hlt, hstamp⟩ => ⟨hlt, by omega⟩
  · exact .inr ⟨by omega, hstamp⟩

namespace Dates

variable {r r' r'' : Room}

theorem refl (r : Room) : r.Dates r :=
  ⟨Nat.le_refl _, fun _ => ⟨rfl, rfl⟩, fun _ _ h => .inl h, fun _ _ h => .inl h⟩

theorem trans (h : r.Dates r') (h' : r'.Dates r'') : r.Dates r'' := by
  have hle := h.clock
  have hle' := h'.clock
  refine ⟨by omega, fun hc => ?_, h.documents.trans hle hle' h'.documents,
    h.presence.trans hle hle' h'.presence⟩
  obtain ⟨hs, hp⟩ := h.same (by omega)
  obtain ⟨hs', hp'⟩ := h'.same (by omega)
  exact ⟨hs.trans hs', hp.trans hp'⟩

theorem rests (h : r.Dates r') (hr : r'.Rests r'') : r.Dates r'' := by
  obtain ⟨hclock, hsame, hdocuments, hpresence⟩ := h
  rw [Room.clock, Room.clock] at hclock hsame hdocuments hpresence
  rw [← hr.store] at hclock hsame hdocuments hpresence
  rw [← hr.presence] at hsame hpresence
  exact ⟨hclock, hsame, hdocuments, hpresence⟩

theorem of_next (hclock : r'.clock = r.clock + 1)
    (hdocuments : ∀ id record, r'.store.records.get? id = some record →
      r.store.records.get? id = some record ∨ record.stamp = r'.clock)
    (hpresence : ∀ id record, r'.presence.get? id = some record →
      r.presence.get? id = some record ∨ record.stamp = r'.clock) : r.Dates r' := by
  refine ⟨by omega, fun hc => by omega, fun id record hr => ?_, fun id record hr => ?_⟩
  · exact (hdocuments id record hr).imp_right fun hs => ⟨by omega, by omega⟩
  · exact (hpresence id record hr).imp_right fun hs => ⟨by omega, by omega⟩

end Dates

theorem dates_dropped (r : Room) (id? : Option RecordId) : r.Dates (r.dropped id?) := by
  cases id? with
  | none => exact .refl r
  | some id =>
    rw [dropped]
    split
    · refine .of_next rfl (fun _ _ h => .inl h) fun k record hr => .inl ?_
      rw [get?_erase] at hr
      split at hr
      · cases hr
      · exact hr
    · exact .refl r

theorem dates_stored (r : Room) (mutations : List Mutation) :
    r.Dates { r with store := (r.stored mutations).1 } := by
  by_cases hc : (r.stored mutations).2.changes = Table.empty
  · have hs : (r.stored mutations).1 = r.store := Store.apply_of_empty _ _ _ hc
    rw [hs]
    exact .refl r
  · have hf : Store.Follows r.store (r.stored mutations).1 _ := Store.follows_apply _ _ _ hc
    exact .of_next hf.clock (fun _ _ h => hf.stamp h) fun _ _ h => .inl h

theorem dates_applyPush (r : Room) (own : Option RecordId) (push : Push) :
    r.Dates (r.applyPush own push).1 := by
  obtain ⟨_, he, -⟩ | ⟨id, content, store, record, -, hs, hr, he⟩ := r.applyPush_cases own push
  · rw [he]
    exact r.dates_stored push.mutations
  · rw [he]
    -- The presence record has the clock of the documents if those changed, and the next one if not.
    obtain ⟨written, hf⟩ : ∃ written, Store.Follows r.store store written := by
      rw [hs]
      by_cases hc : (r.stored push.mutations).2.changes = Table.empty
      · have hsame : (r.stored push.mutations).1 = r.store := Store.apply_of_empty _ _ _ hc
        rw [if_pos (isEmpty_iff.2 hc), hsame]
        exact ⟨_, Store.follows_advance _⟩
      · rw [if_neg fun h => hc (isEmpty_iff.1 h)]
        exact ⟨_, Store.follows_apply _ _ _ hc⟩
    refine .of_next hf.clock (fun _ _ h => hf.stamp h) fun k other ho => ?_
    have ho : (r.presence.insert id record).get? k = some other := ho
    rw [get?_insert] at ho
    split at ho
    · obtain rfl := Option.some.inj ho
      exact .inr (by rw [hr]; rfl)
    · exact .inl ho

/-- What holds of two states of a room, the earlier one first. -/
structure Clocked (earlier later : Room) : Prop where
  le : earlier.clock ≤ later.clock
  identifies : earlier.clock = later.clock →
    earlier.store.records = later.store.records ∧
      earlier.store.tombstones = later.store.tombstones ∧
      earlier.store.horizon = later.store.horizon ∧ earlier.presence = later.presence
  stamped : ∀ id record,
    later.store.get? id = some record ∨ later.presence.get? id = some record →
      record.stamp ≤ later.clock
  /-- A document that the earlier state did not have, or had in another version. -/
  documents : ∀ id record, later.store.get? id = some record →
    earlier.store.get? id ≠ some record → earlier.clock < record.stamp
  presence : ∀ id record, later.presence.get? id = some record →
    earlier.presence.get? id ≠ some record → earlier.clock < record.stamp

theorem Dates.clocked {r r' : Room} (h : r.Dates r')
    (hdocuments : ∀ id record, r'.store.get? id = some record → record.stamp ≤ r'.clock)
    (hpresence : ∀ id record, r'.presence.get? id = some record → record.stamp ≤ r'.clock) :
    r.Clocked r' := by
  refine ⟨h.clock, fun hc => ?_, fun id record hr => hr.elim (hdocuments id record)
    (hpresence id record), fun id record hr hne => ?_, fun id record hr hne => ?_⟩
  · obtain ⟨hs, hp⟩ := h.same hc
    exact ⟨congrArg Store.records hs, congrArg Store.tombstones hs, congrArg Store.horizon hs, hp⟩
  · exact ((h.documents id record hr).resolve_left hne).1
  · exact ((h.presence id record hr).resolve_left hne).1

end Room

namespace LiveRoom

open Room

variable {σ : Type} [Host σ] {l l' : LiveRoom σ} {now : Nat} {deed : Deed}

theorem Turn.dates (h : Turn now deed l l') : l.room.Dates l'.room := by
  obtain ⟨id?, hrests⟩ | ⟨_, own, push, -, hrests⟩ := h.alters
  · exact (l.room.dates_dropped id?).rests hrests
  · exact (l.room.dates_applyPush own push).rests hrests

theorem dates_run (l : LiveRoom σ) (calls : List Call) : l.room.Dates (l.run calls).room :=
  run_keeps (P := fun l' => l.room.Dates l'.room) (fun _ _ _ _ ht h => h.trans ht.dates)
    (.refl l.room) calls

theorem Turn.store_sound (h : Turn now deed l l') (hs : l.room.store.Sound) :
    l'.room.store.Sound := by
  obtain he | he | ⟨mutations, he⟩ := h.store <;> rw [he]
  · exact hs
  · exact (Store.follows_advance _).sound hs
  · exact stored_sound hs mutations

end LiveRoom

/-- A room that a host starts with, under any settings: a new one, or one that goes on from what an
earlier one left. -/
inductive Started : Room → Prop
  | new (config : Config) : Started (.new config)
  | restored {σ : Type} [Host σ] {start : Room} (host : σ) (calls : List LiveRoom.Call)
      (config : Config) : Started start →
      Started (.ofSnapshot config (LiveRoom.run ⟨start, host⟩ calls).room.snapshot)

theorem Started.store_sound {r : Room} (h : Started r) : r.store.Sound := by
  induction h with
  | new config => exact Store.sound_empty _ _
  | restored host calls config _ ih =>
    exact (LiveRoom.run_keeps (P := fun l => l.room.store.Sound)
      (fun _ _ _ _ ht hs => ht.store_sound hs) ih calls).ofSnapshot _ _

theorem Started.presence_eq {r : Room} (h : Started r) : r.presence = Table.empty := by
  cases h <;> rfl

/-- Any two states that a room goes through between the calls of a host. -/
theorem clocked_run {σ : Type} [Host σ] {start : Room} (hstart : Started start) (host : σ)
    (before after : List LiveRoom.Call) :
    (LiveRoom.run ⟨start, host⟩ before).room.Clocked
      (LiveRoom.run ⟨start, host⟩ (before ++ after)).room := by
  have hlater := LiveRoom.dates_run ⟨start, host⟩ (before ++ after)
  have hsound : (LiveRoom.run ⟨start, host⟩ (before ++ after)).room.store.Sound :=
    LiveRoom.run_keeps (P := fun l => l.room.store.Sound)
      (fun _ _ _ _ ht hs => ht.store_sound hs) hstart.store_sound (before ++ after)
  have hbetween := (LiveRoom.run ⟨start, host⟩ before).dates_run after
  rw [← LiveRoom.run_append] at hbetween
  refine hbetween.clocked hsound.stamped fun id record hr => ?_
  obtain hold | ⟨-, hstamp⟩ := hlater.presence id record hr
  · rw [hstart.presence_eq] at hold
    cases hold
  · exact hstamp

/-- A room goes on from the notes of an earlier one. A session shows itself, deletes a note, and is
thrown out. -/
theorem clocked_run_restored :
    let note : Edit := .upsert "note" (.object [])
    let connect : LiveRoom.Call := ⟨0, .connect "a" ⟨"a", "presence:a", ⟨1, []⟩, none⟩⟩
    let earlier : LiveRoom Unit := LiveRoom.run ⟨.new .notes, ()⟩ [⟨0, .openSocket "a" 0 .null⟩,
      connect, ⟨0, .push "a" ⟨"a", 1, [⟨"m", note⟩, ⟨"n", note⟩], none⟩⟩]
    let start : Room := .ofSnapshot .notes earlier.room.snapshot
    let before : List LiveRoom.Call := [⟨0, .openSocket "a" 0 .null⟩, connect,
      ⟨0, .push "a" ⟨"a", 1, [⟨"m", note⟩], some (.object [])⟩⟩]
    let after : List LiveRoom.Call := [⟨1, .push "a" ⟨"a", 2, [⟨"n", .delete⟩], none⟩⟩,
      ⟨1, .kick "a"⟩]
    Started start ∧ (LiveRoom.run ⟨start, ()⟩ before).room.clock = 2 ∧
      (LiveRoom.run ⟨start, ()⟩ (before ++ after)).room.clock = 4 ∧
      (LiveRoom.run ⟨start, ()⟩ before).room.Clocked
        (LiveRoom.run ⟨start, ()⟩ (before ++ after)).room := by
  intro note connect earlier start before after
  have hstart : Started start := .restored () _ _ (.new .notes)
  exact ⟨hstart, by decide +kernel, by decide +kernel, clocked_run hstart () before after⟩

end RoomSync
