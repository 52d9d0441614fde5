import RoomSync.Proofs.Room.Past
import RoomSync.Replica

namespace RoomSync

open Table

namespace Room

theorem presenceOfOthers_eq {r : Room} (h : r.Sound) (own : RecordId) :
    r.presenceOfOthers own = (r.presence.erase own).values :=
  values_filter r.presence (fun id _ => id ≠ own) Record.id h.moment.presence_keyed

theorem table_full {r : Room} (h : r.Sound) (own : RecordId) :
    Record.table (r.store.records.values ++ r.presenceOfOthers own) = r.moment.view own := by
  rw [presenceOfOthers_eq h]
  exact Record.table_append_values h.store.keyed (h.moment.presence_keyed.erase own)

/-- The changes since a clock that a session catches up with lead from the documents of any moment
that is not older to what the session sees now. -/
theorem Chronicle.catchUp {r : Room} {past : List Moment} (h : r.Chronicle past) {m : Moment}
    (hm : m ∈ past) {since : Nat} (hle : since ≤ m.clock) (hc : r.store.canCatchUp since)
    (own : RecordId) :
    ((r.presenceOfOthers own).foldl Changes.put (r.store.changesSince since)).applyTo
      m.documents = r.moment.view own := by
  have hp : (r.presence.erase own).KeyedBy Record.id := h.sound.moment.presence_keyed.erase own
  apply Table.ext
  intro id
  rw [Changes.get?_applyTo, presenceOfOthers_eq h.sound, Changes.get?_foldl_put_values hp,
    Moment.view, get?_union]
  change ((((r.presence.erase own).get? id).map Change.put).or _).elim _ _ =
    ((r.presence.erase own).get? id).or (r.store.records.get? id)
  cases (r.presence.erase own).get? id with
  | some record => rfl
  | none => exact Store.changesSince_spec h.sound.store (h.recalls m hm) hle hc id

theorem hydration_cases (r : Room) (resumed : Bool) (last : Option Nat) (own : RecordId) :
    r.hydration resumed last own =
        .full (r.store.records.values ++ r.presenceOfOthers own) ∨
      ∃ since, last = some since ∧ r.store.canCatchUp since = true ∧
        r.hydration resumed last own = .incremental
          ⟨since, r.clock, (r.presenceOfOthers own).foldl Changes.put (r.store.changesSince since)⟩ := by
  unfold hydration
  cases hl : last.filter fun clock => resumed && r.store.canCatchUp clock with
  | none => exact .inl rfl
  | some since =>
    obtain ⟨rfl, hc⟩ := Option.filter_eq_some_iff.1 hl
    exact .inr ⟨since, rfl, (Bool.and_eq_true_iff.1 hc).2, rfl⟩

theorem hydration_none (r : Room) (resumed : Bool) (own : RecordId) :
    r.hydration resumed none own = .full (r.store.records.values ++ r.presenceOfOthers own) := rfl

theorem hydration_of_not_resumed (r : Room) (last : Option Nat) (own : RecordId) :
    r.hydration false last own = .full (r.store.records.values ++ r.presenceOfOthers own) := by
  cases last <;> rfl

theorem Rests.hydration {r r' : Room} (h : r.Rests r') (resumed : Bool) (last : Option Nat)
    (own : RecordId) : r'.hydration resumed last own = r.hydration resumed last own := by
  rw [Room.hydration, Room.hydration, presenceOfOthers, presenceOfOthers, clock, clock, h.store,
    h.presence]

end Room

namespace LiveRoom

open Room

variable {σ : Type} [Host σ]

variable {l : LiveRoom σ} {key : String} {request : ConnectRequest}

theorem rests_accept (l : LiveRoom σ) (key : String) (s : Session) (waiting : Waiting)
    (request : ConnectRequest) (now : Nat) :
    (l.readied key s request now).room.Rests (l.accept key s waiting request now).1.room := by
  let l₁ := l.readied key s request now
  have hseat : l₁.room.Rests (l₁.room.seated key (l₁.guest s waiting request now)) :=
    ⟨rfl, rfl, rfl⟩
  exact hseat.trans (l₁.steady_welcome key s waiting request now).rests

theorem accept_told (l : LiveRoom σ) (key : String) (s : Session) (waiting : Waiting)
    (request : ConnectRequest) (now : Nat) :
    (l.accept key s waiting request now).2.clock =
        (l.accept key s waiting request now).1.room.clock ∧
      (l.accept key s waiting request now).2.hydration =
        (l.accept key s waiting request now).1.room.hydration waiting.resume.isSome
          request.lastKnownClock request.presenceId := by
  have hr := l.rests_accept key s waiting request now
  exact ⟨(congrArg Moment.clock hr.moment).symm, (hr.hydration ..).symm⟩

theorem Admitted.offer {s : Session} {waiting : Waiting} (h : l.Admitted key request s waiting)
    (now : Nat) (last : Option Nat) :
    ∃ accepted, (l.connect key { request with lastKnownClock := last } now).2 = .ok accepted ∧
      accepted.clock = (l.connect key request now).1.room.clock ∧
      accepted.hydration = (l.connect key request now).1.room.hydration waiting.resume.isSome
        last request.presenceId := by
  -- What is told depends on the clock that the client knows, and the records of the room do not.
  have hr := l.rests_accept key s waiting request now
  rw [h.connect, (h.whatever last).connect]
  exact ⟨_, rfl, (congrArg Moment.clock hr.moment).symm, (hr.hydration ..).symm⟩

end LiveRoom

/-- A replica that holds the documents of an earlier moment, and presence records of whatever age,
catches up to exactly what the session would have started over from. -/
theorem catchUp_eq_hydrate {σ : Type} [Host σ] {start : Room} (hstart : Founded start) (host : σ)
    (calls : List LiveRoom.Call) (key : String) (request : ConnectRequest) (now : Nat)
    {accepted : Accepted} {patch : Patch} (replica : Replica) {m : Moment}
    (hm : m ∈ LiveRoom.history ⟨start, host⟩ (calls ++ [⟨now, .connect key request⟩]))
    (hclock : m.clock = replica.clock) (hlast : request.lastKnownClock = some replica.clock)
    (hdocuments : (replica.records.filter fun _ r => !r.isPresence) = m.documents)
    (haccepted : ((LiveRoom.run ⟨start, host⟩ calls).connect key request now).2 = .ok accepted)
    (hpatch : accepted.hydration = .incremental patch) :
    ∃ full records,
      ((LiveRoom.run ⟨start, host⟩ calls).connect key { request with lastKnownClock := none }
        now).2 = .ok full ∧
      full.hydration = .full records ∧
      replica.catchUp patch = .ok (.hydrate full.clock records) := by
  obtain ⟨s, waiting, hadmitted⟩ := LiveRoom.admitted_of_connect haccepted
  let after := ((LiveRoom.run ⟨start, host⟩ calls).connect key request now).1
  have hchronicle := LiveRoom.chronicle_history hstart host
    (calls ++ [⟨now, .connect key request⟩])
  rw [LiveRoom.run_append] at hchronicle
  change after.room.Chronicle _ at hchronicle
  obtain ⟨full, hfull, hfullClock, hfullHydration⟩ := hadmitted.offer now none
  -- The same handshake, with the clock that the client knows.
  obtain ⟨accepted', haccepted', -, hhydration⟩ := hadmitted.offer now (some replica.clock)
  rw [show ({ request with lastKnownClock := some replica.clock } : ConnectRequest) = request by
    rw [← hlast], haccepted] at haccepted'
  obtain rfl := Except.ok.inj haccepted'
  rw [hpatch] at hhydration
  refine ⟨full, _, hfull, hfullHydration, ?_⟩
  obtain he | ⟨since, hsince, hc, he⟩ := after.room.hydration_cases waiting.resume.isSome
    (some replica.clock) request.presenceId
  · cases hhydration.trans he
  · obtain rfl := Option.some.inj hsince
    obtain rfl := Hydration.incremental.inj (hhydration.trans he)
    have hview := hchronicle.catchUp hm (Nat.le_refl _) (hclock ▸ hc) request.presenceId
    rw [Replica.catchUp, if_neg (Nat.lt_irrefl _), Replica.hydrate, hfullClock]
    dsimp only
    rw [hdocuments, ← hclock, hview, ← Room.table_full hchronicle.sound]

theorem eq_ok_of_toOption {ε α : Type} {result : Except ε α} {a : α}
    (h : result.toOption = some a) : result = .ok a := by
  cases result with
  | error e => cases h
  | ok b => rw [Option.some.inj h]

/-- While the first session is away, the second one deletes a note, writes another one and shows
itself. -/
theorem catchUp_eq_hydrate_after_absence :
    let note : Edit := .upsert "note" (.object [])
    let request : ConnectRequest := ⟨"a", "presence:a", ⟨1, []⟩, some 1⟩
    let calls : List LiveRoom.Call :=
      [⟨0, .openSocket "a" 0 .null⟩, ⟨0, .connect "a" { request with lastKnownClock := none }⟩,
        ⟨0, .push "a" ⟨"a", 1, [⟨"m", note⟩, ⟨"n", note⟩], some (.object [])⟩⟩,
        ⟨1, .socketClosed "a" 0⟩, ⟨1, .openSocket "b" 1 .null⟩,
        ⟨1, .connect "b" ⟨"b", "presence:b", ⟨1, []⟩, none⟩⟩,
        ⟨1, .push "b" ⟨"b", 1, [⟨"n", .delete⟩, ⟨"o", note⟩], some (.object [])⟩⟩,
        ⟨2, .openSocket "a" 2 .null⟩]
    let l : LiveRoom Unit := LiveRoom.run ⟨.new .notes, ()⟩ calls
    let replica : Replica := ⟨1, Record.table [⟨"m", "note", .object [], 1⟩,
      ⟨"n", "note", .object [], 1⟩, ⟨"presence:c", "presence", .object [], 0⟩]⟩
    let patch : Patch := ⟨1, 2, Table.ofList [("n", .remove),
      ("o", .put ⟨"o", "note", .object [], 2⟩),
      ("presence:b", .put ⟨"presence:b", "presence", .object [], 2⟩)]⟩
    (l.connect "a" request 2).2 = .ok ⟨2, 1, true, .incremental patch⟩ ∧
      ∃ full records,
        (l.connect "a" { request with lastKnownClock := none } 2).2 = .ok full ∧
        full.hydration = .full records ∧
        replica.catchUp patch = .ok (.hydrate full.clock records) := by
  intro note request calls l replica patch
  let m : Moment := ⟨1, Record.table [⟨"m", "note", .object [], 1⟩, ⟨"n", "note", .object [], 1⟩],
    Record.table [⟨"presence:a", "presence", .object [], 1⟩]⟩
  have hm : m ∈ LiveRoom.history ⟨.new .notes, ()⟩ (calls ++ [⟨2, .connect "a" request⟩]) := by
    decide +kernel
  have hdocuments : (replica.records.filter fun _ r => !r.isPresence) = m.documents := by
    decide +kernel
  have haccepted : (l.connect "a" request 2).2 = .ok ⟨2, 1, true, .incremental patch⟩ :=
    eq_ok_of_toOption (by decide +kernel)
  exact ⟨haccepted, catchUp_eq_hydrate (.new Config.notes_keepsPresence) () calls "a" request 2
    replica hm rfl rfl hdocuments haccepted rfl⟩

end RoomSync
