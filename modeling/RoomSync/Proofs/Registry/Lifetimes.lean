import RoomSync.Proofs.Registry
import RoomSync.Proofs.Store.Run

namespace RoomSync

open Table

namespace Store

theorem clock_le_run (s : Store) (operations : List Operation) :
    s.clock ≤ (s.run operations).clock := by
  refine run_keeps (P := fun next => s.clock ≤ next.clock) (fun t next changes hf h => ?_)
    (Nat.le_refl _) operations
  have := hf.clock
  omega

theorem keyed_run {s : Store} (h : s.records.KeyedBy Record.id) (operations : List Operation) :
    (s.run operations).records.KeyedBy Record.id :=
  run_keeps (P := fun s => s.records.KeyedBy Record.id) (fun _ _ _ hf => hf.keyed) h operations

end Store

theorem LiveRoom.store_perform {σ : Type} [Host σ] (l : LiveRoom σ) (call : Call) :
    ∃ operations, (l.perform call).room.store = l.room.store.run operations := by
  refine run_keeps (P := fun l' => ∃ operations, l'.room.store = l.room.store.run operations)
    (fun now deed l₁ l₂ ht h => ?_) ⟨[], rfl⟩ [call]
  obtain ⟨operations, h⟩ := h
  obtain he | he | ⟨mutations, he⟩ := ht.store
  · exact ⟨operations, he.trans h⟩
  · refine ⟨operations ++ [.advance], ?_⟩
    rw [he, h, Store.run, Store.run, List.foldl_append]
    rfl
  · refine ⟨operations ++ [.apply l₁.room.config.schema (l₁.room.plain mutations)], ?_⟩
    rw [he, Room.stored, h, Store.run, Store.run, List.foldl_append]
    rfl

/-- What a document is worth keeping for. -/
structure Durable where
  clock : Nat
  records : Table Record

def Room.durable (r : Room) : Durable := ⟨r.clock, r.store.records⟩

def Snapshot.durable (s : Snapshot) : Durable := ⟨s.clock, Record.table s.records⟩

theorem Room.durable_snapshot {r : Room} (h : r.store.records.KeyedBy Record.id) :
    r.snapshot.durable = r.durable :=
  congrArg (Durable.mk _) (Record.table_values h)

namespace Registry

variable {σ : Type} {r : Registry σ} {latest : Table RoomId} {id : RoomId} {document : String}

/-- What there is of a document: in its room, if it has one, and otherwise in what was saved. -/
def durable (r : Registry σ) (document : String) : Durable :=
  match r.liveRoom? document with
  | some room => room.durable
  | none => (r.load document).elim ⟨0, Table.empty⟩ Snapshot.durable

theorem durable_of_live {room : Room} (hlive : r.live.get? document = some id)
    (hroom : r.room? id = some room) : r.durable document = room.durable := by
  rw [durable, liveRoom?, hlive, Option.bind_some, hroom]

theorem durable_of_not_live (hlive : r.live.get? document = none) :
    r.durable document = (r.load document).elim ⟨0, Table.empty⟩ Snapshot.durable := by
  rw [durable, liveRoom?, hlive, Option.bind_none]

theorem durable_createRoom (hlive : r.live.get? document = none) :
    (r.createRoom document).durable = r.durable document := by
  rw [durable_of_not_live hlive, createRoom]
  cases r.load document <;> rfl

theorem keyed_createRoom (r : Registry σ) (document : String) :
    (r.createRoom document).store.records.KeyedBy Record.id := by
  rw [createRoom]
  cases r.load document with
  | none =>
    intro key record hrecord
    cases hrecord
  | some snapshot => exact Record.keyed_table snapshot.records

/-- The rooms that documents have are the latest ones that were made for them, rooms that no document
has any more are deserted, and the latest room of a document that has none is saved. -/
structure Accounted (r : Registry σ) (latest : Table RoomId) : Prop where
  known : ∀ document id, r.live.get? document = some id → latest.get? document = some id
  made : ∀ document id, latest.get? document = some id → id < r.rooms.length
  own : ∀ document document' id, latest.get? document = some id →
    latest.get? document' = some id → document = document'
  keyed : ∀ id room, r.room? id = some room → room.store.records.KeyedBy Record.id
  vacant : ∀ id room, r.room? id = some room → (∀ document, r.live.get? document ≠ some id) →
    room.sessions = Table.empty
  saved : ∀ document id room, latest.get? document = some id → r.live.get? document = none →
    r.room? id = some room → r.snapshots.get? document = some room.snapshot

namespace Accounted

theorem not_live (h : r.Accounted latest) (hlatest : latest.get? document = some id)
    (hlive : r.live.get? document ≠ some id) (document' : String) :
    r.live.get? document' ≠ some id := fun hlive' =>
  hlive (h.own _ _ _ (h.known _ _ hlive') hlatest ▸ hlive')

theorem room (h : r.Accounted latest) (hlive : r.live.get? document = some id) :
    ∃ room, r.room? id = some room :=
  ⟨_, List.getElem?_eq_getElem (h.made _ _ (h.known _ _ hlive))⟩

theorem onRoom (h : r.Accounted latest) {act : LiveRoom σ → LiveRoom σ}
    (hact : ∀ l : LiveRoom σ, ∃ operations, (act l).room.store = l.room.store.run operations)
    (hdeserted : (∃ document, r.live.get? document = some id) ∨
      ∀ l : LiveRoom σ, l.room.sessions = Table.empty → l.Deserted (act l)) :
    (r.onRoom id act).Accounted latest where
  known := by simpa using h.known
  made := by simpa using h.made
  own := h.own
  keyed id' room' hroom' := by
    obtain ⟨-, hroom⟩ | ⟨rfl, room, hroom, rfl⟩ := room?_onRoom_cases hroom'
    · exact h.keyed id' room' hroom
    · obtain ⟨operations, hstore⟩ := hact ⟨room, r.host⟩
      rw [hstore]
      exact Store.keyed_run (h.keyed id' room hroom) operations
  vacant id' room' hroom' hlive := by
    simp only [live_onRoom] at hlive
    obtain ⟨-, hroom⟩ | ⟨rfl, room, hroom, rfl⟩ := room?_onRoom_cases hroom'
    · exact h.vacant id' room' hroom hlive
    · obtain ⟨document, hdocument⟩ | hdeserted := hdeserted
      · exact absurd hdocument (hlive document)
      · exact (hdeserted ⟨room, r.host⟩ (h.vacant id' room hroom hlive)).sessions
  saved document id' room' hlatest hlive hroom' := by
    simp only [live_onRoom, snapshots_onRoom] at hlive ⊢
    obtain ⟨-, hroom⟩ | ⟨rfl, room, hroom, rfl⟩ := room?_onRoom_cases hroom'
    · exact h.saved document id' room' hlatest hlive hroom
    · have hnowhere := h.not_live hlatest (by rw [hlive]; exact nofun)
      obtain ⟨document', hdocument'⟩ | hdeserted := hdeserted
      · exact absurd hdocument' (hnowhere document')
      · have hstore := (hdeserted ⟨room, r.host⟩ (h.vacant id' room hroom hnowhere)).store
        rw [h.saved document id' room hlatest hlive hroom, Room.snapshot, Room.snapshot, hstore]

theorem getOrCreate (h : r.Accounted latest) (document : String) :
    (r.getOrCreate document).1.Accounted
      (latest.insert document (r.getOrCreate document).2) := by
  obtain ⟨id, hlive, he⟩ | ⟨hlive, he⟩ := r.getOrCreate_cases document
  · have hlatest : latest.insert document id = latest := by
      refine Table.ext fun document' => ?_
      rw [get?_insert]
      split
      · rename_i hd
        rw [hd, h.known document id hlive]
      · rfl
    rw [he, hlatest]
    exact h
  · rw [he]
    refine ⟨fun d i hd => ?_, fun d i hd => ?_, fun d d' i hd hd' => ?_, fun i room hroom => ?_,
      fun i room hroom hnowhere => ?_, fun d i room hlatest hnone hroom => ?_⟩
    · simp only [get?_insert] at hd ⊢
      by_cases hdocument : d = document
      · rwa [if_pos hdocument] at hd ⊢
      · rw [if_neg hdocument] at hd ⊢
        exact h.known d i hd
    · rw [List.length_append, List.length_singleton]
      rw [get?_insert] at hd
      split at hd
      · cases hd
        exact Nat.lt_succ_self _
      · exact Nat.lt_succ_of_lt (h.made d i hd)
    · simp only [get?_insert] at hd hd'
      have hfresh : ∀ d, latest.get? d ≠ some r.rooms.length := fun d hd =>
        Nat.lt_irrefl _ (h.made d _ hd)
      split at hd <;> split at hd'
      · rename_i hdocument hdocument'
        exact hdocument.trans hdocument'.symm
      · cases hd
        exact absurd hd' (hfresh d')
      · cases hd'
        exact absurd hd (hfresh d)
      · exact h.own d d' i hd hd'
    · obtain hroom | ⟨-, rfl⟩ := getElem?_append_singleton hroom
      · exact h.keyed i room hroom
      · exact r.keyed_createRoom document
    · obtain hroom | ⟨rfl, -⟩ := getElem?_append_singleton hroom
      · refine h.vacant i room hroom fun d hd => hnowhere d ?_
        have hne : d ≠ document := by
          rintro rfl
          rw [hlive] at hd
          cases hd
        rwa [get?_insert, if_neg hne]
      · exact absurd (get?_insert_self ..) (hnowhere document)
    · rw [get?_insert] at hlatest hnone
      split at hlatest
      · rename_i hdocument
        rw [if_pos hdocument] at hnone
        cases hnone
      · rename_i hdocument
        rw [if_neg hdocument] at hnone
        refine h.saved d i room hlatest hnone ?_
        rwa [room?, List.getElem?_append_left (h.made d i hlatest)] at hroom

theorem retire (h : r.Accounted latest) {room : Room} (hlive : r.live.get? document = some id)
    (hroom : r.room? id = some room) (hempty : room.sessions = Table.empty) :
    ({ r.save document room.snapshot with live := r.live.erase document } :
      Registry σ).Accounted latest := by
  have hlive' : ∀ d i, (r.live.erase document).get? d = some i → r.live.get? d = some i := by
    intro d i hd
    rw [get?_erase] at hd
    split at hd
    · cases hd
    · exact hd
  refine ⟨fun d i hd => h.known d i (hlive' d i hd), h.made, h.own, h.keyed,
    fun i found hfound hnowhere => ?_, fun d i found hlatest hnone hfound => ?_⟩
  · by_cases hi : i = id
    · subst hi
      cases hroom.symm.trans hfound
      exact hempty
    · refine h.vacant i found hfound fun d hd => hnowhere d ?_
      have hne : d ≠ document := by
        rintro rfl
        exact hi (Option.some.inj (hd.symm.trans hlive))
      rwa [get?_erase, if_neg hne]
  · change (r.snapshots.insert document room.snapshot).get? d = some found.snapshot
    rw [get?_erase] at hnone
    rw [get?_insert]
    by_cases hdocument : d = document
    · subst hdocument
      obtain rfl : id = i := Option.some.inj ((h.known d id hlive).symm.trans hlatest)
      cases hroom.symm.trans hfound
      rw [if_pos rfl]
    · rw [if_neg hdocument] at hnone ⊢
      exact h.saved d i found hlatest hnone hfound

end Accounted

theorem durable_onRoom {act : LiveRoom σ → LiveRoom σ}
    (hact : ∀ l : LiveRoom σ, ∃ operations, (act l).room.store = l.room.store.run operations)
    (r : Registry σ) (id : RoomId) (document : String) :
    (r.onRoom id act).durable document = r.durable document ∨
      (r.live.get? document = some id ∧
        (r.durable document).clock ≤ ((r.onRoom id act).durable document).clock) := by
  cases hlive : r.live.get? document with
  | none =>
    refine .inl ?_
    rw [durable_of_not_live hlive, durable_of_not_live (by rwa [live_onRoom])]
    simp only [load, snapshots_onRoom]
  | some id' =>
    by_cases hid : id' = id
    · subst hid
      cases hroom : r.room? id' with
      | none => exact .inl (by rw [onRoom_of_none hroom])
      | some room =>
        refine .inr ⟨rfl, ?_⟩
        rw [durable_of_live hlive hroom,
          durable_of_live (by rwa [live_onRoom]) (room?_onRoom_self hroom)]
        obtain ⟨operations, hstore⟩ := hact ⟨room, r.host⟩
        change room.store.clock ≤ (act ⟨room, r.host⟩).room.store.clock
        rw [hstore]
        exact Store.clock_le_run _ _
    · refine .inl ?_
      simp only [durable, liveRoom?, live_onRoom, hlive, Option.bind_some, room?_onRoom,
        if_neg hid, load, snapshots_onRoom]

theorem durable_getOrCreate (h : r.Accounted latest) (document d : String) :
    (r.getOrCreate document).1.durable d = r.durable d := by
  obtain ⟨id, -, he⟩ | ⟨hlive, he⟩ := r.getOrCreate_cases document
  · rw [he]
  · rw [he]
    by_cases hd : d = document
    · subst hd
      rw [durable_of_live (get?_insert_self ..) List.getElem?_concat_length,
        durable_createRoom hlive]
    · cases hlive' : r.live.get? d with
      | none =>
        rw [durable_of_not_live hlive', durable_of_not_live (by rwa [get?_insert, if_neg hd])]
        rfl
      | some id =>
        obtain ⟨room, hroom⟩ := h.room hlive'
        have hlt := h.made d id (h.known d id hlive')
        rw [durable_of_live hlive' hroom, durable_of_live (by rwa [get?_insert, if_neg hd])
          ((List.getElem?_append_left hlt).trans hroom)]

theorem durable_retire (h : r.Accounted latest) {room : Room}
    (hlive : r.live.get? document = some id) (hroom : r.room? id = some room) (d : String) :
    ({ r.save document room.snapshot with live := r.live.erase document } :
      Registry σ).durable d = r.durable d := by
  by_cases hd : d = document
  · subst hd
    rw [durable_of_live hlive hroom, durable_of_not_live (by rw [get?_erase, if_pos rfl]),
      ← Room.durable_snapshot (h.keyed id room hroom)]
    simp only [load, save, get?_insert_self, Option.elim_some]
  · simp only [durable, liveRoom?, get?_erase, if_neg hd, load, save, get?_insert]
    rfl

end Registry

end RoomSync
