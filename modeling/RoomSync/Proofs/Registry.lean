import RoomSync.Proofs.Room.Sockets
import RoomSync.Registry

namespace RoomSync

open Table

theorem getElem?_append_singleton {α : Type} {l : List α} {a b : α} {i : Nat}
    (h : (l ++ [a])[i]? = some b) : l[i]? = some b ∨ (i = l.length ∧ b = a) := by
  rw [List.getElem?_append] at h
  split at h
  · exact .inl h
  · rename_i hlt
    cases hi : i - l.length with
    | zero =>
      simp only [hi, List.getElem?_cons_zero, Option.some.injEq] at h
      exact .inr ⟨by omega, h.symm⟩
    | succ n => simp [hi] at h

def Room.HasSocket (r : Room) (key : String) (socket : SocketId) : Prop :=
  ∃ s, r.session? key = some s ∧ s.socket? = some socket

namespace Registry

variable {σ : Type} {r : Registry σ} {id : RoomId} {act : LiveRoom σ → LiveRoom σ}

theorem onRoom_of_none (h : r.room? id = none) : r.onRoom id act = r := by
  rw [onRoom, onRoom?, h]

theorem onRoom_of_some {room : Room} (h : r.room? id = some room) :
    r.onRoom id act = { r with
      rooms := r.rooms.set id (act ⟨room, r.host⟩).room
      host := (act ⟨room, r.host⟩).host } := by
  rw [onRoom, onRoom?, h]

theorem onRoom?_fst {α : Type} (r : Registry σ) (id : RoomId)
    (act : LiveRoom σ → LiveRoom σ × α) :
    (r.onRoom? id act).1 = r.onRoom id fun l => (act l).1 := by
  cases h : r.room? id with
  | none => rw [onRoom_of_none h, onRoom?, h]
  | some room => rw [onRoom_of_some h, onRoom?, h]

@[simp] theorem config_onRoom (r : Registry σ) (id : RoomId) (act : LiveRoom σ → LiveRoom σ) :
    (r.onRoom id act).config = r.config := by
  cases h : r.room? id with
  | none => rw [onRoom_of_none h]
  | some room => rw [onRoom_of_some h]

@[simp] theorem live_onRoom (r : Registry σ) (id : RoomId) (act : LiveRoom σ → LiveRoom σ) :
    (r.onRoom id act).live = r.live := by
  cases h : r.room? id with
  | none => rw [onRoom_of_none h]
  | some room => rw [onRoom_of_some h]

@[simp] theorem snapshots_onRoom (r : Registry σ) (id : RoomId)
    (act : LiveRoom σ → LiveRoom σ) : (r.onRoom id act).snapshots = r.snapshots := by
  cases h : r.room? id with
  | none => rw [onRoom_of_none h]
  | some room => rw [onRoom_of_some h]

@[simp] theorem length_onRoom (r : Registry σ) (id : RoomId) (act : LiveRoom σ → LiveRoom σ) :
    (r.onRoom id act).rooms.length = r.rooms.length := by
  cases h : r.room? id with
  | none => rw [onRoom_of_none h]
  | some room =>
    rw [onRoom_of_some h]
    exact List.length_set

theorem room?_onRoom (r : Registry σ) (id id' : RoomId) (act : LiveRoom σ → LiveRoom σ) :
    (r.onRoom id act).room? id' =
      if id' = id then (r.room? id).map fun room => (act ⟨room, r.host⟩).room else r.room? id' := by
  cases h : r.room? id with
  | none =>
    rw [onRoom_of_none h]
    by_cases hid : id' = id <;> simp [hid, h]
  | some room =>
    have hlt : id < r.rooms.length := (List.getElem?_eq_some_iff.1 h).1
    rw [onRoom_of_some h]
    by_cases hid : id' = id
    · simp [room?, hid, hlt]
    · simp [room?, hid, List.getElem?_set_ne (Ne.symm hid)]

theorem room?_onRoom_self {room : Room} (h : r.room? id = some room) :
    (r.onRoom id act).room? id = some (act ⟨room, r.host⟩).room := by
  rw [room?_onRoom, if_pos rfl, h, Option.map_some]

theorem room?_onRoom_cases {id' : RoomId} {room' : Room}
    (h : (r.onRoom id act).room? id' = some room') :
    (id' ≠ id ∧ r.room? id' = some room') ∨
      (id' = id ∧ ∃ room, r.room? id = some room ∧ (act ⟨room, r.host⟩).room = room') := by
  rw [room?_onRoom] at h
  split at h
  · rename_i hid
    exact .inr ⟨hid, Option.map_eq_some_iff.1 h⟩
  · rename_i hid
    exact .inl ⟨hid, h⟩

theorem host_onRoom {P : σ → Prop} (h : P r.host)
    (hact : ∀ l : LiveRoom σ, P l.host → P (act l).host) : P (r.onRoom id act).host := by
  cases hroom : r.room? id with
  | none => rwa [onRoom_of_none hroom]
  | some room =>
    rw [onRoom_of_some hroom]
    exact hact ⟨room, r.host⟩ h

theorem getOrCreate_cases (r : Registry σ) (document : String) :
    (∃ id, r.live.get? document = some id ∧ r.getOrCreate document = (r, id)) ∨
      (r.live.get? document = none ∧ r.getOrCreate document =
        ({ r with
            rooms := r.rooms ++ [r.createRoom document]
            live := r.live.insert document r.rooms.length }, r.rooms.length)) := by
  rw [getOrCreate]
  cases h : r.live.get? document with
  | none => exact .inr ⟨rfl, rfl⟩
  | some id => exact .inl ⟨id, rfl, rfl⟩

@[simp] theorem host_getOrCreate (r : Registry σ) (document : String) :
    (r.getOrCreate document).1.host = r.host := by
  obtain ⟨_, _, he⟩ | ⟨_, he⟩ := r.getOrCreate_cases document <;> rw [he]

@[simp] theorem rooms_removeIfEmpty (r : Registry σ) (document : String) :
    (r.removeIfEmpty document).1.rooms = r.rooms := by
  unfold removeIfEmpty
  split
  · rfl
  · split <;> rfl

@[simp] theorem host_removeIfEmpty (r : Registry σ) (document : String) :
    (r.removeIfEmpty document).1.host = r.host := by
  unfold removeIfEmpty
  split
  · rfl
  · split <;> rfl

theorem live_getOrCreate (r : Registry σ) (document : String) :
    (r.getOrCreate document).1.live.get? document = some (r.getOrCreate document).2 := by
  obtain ⟨id, hlive, he⟩ | ⟨-, he⟩ := r.getOrCreate_cases document
  · rw [he, hlive]
  · rw [he]
    exact get?_insert_self ..

variable [Host σ]

theorem openSession_eq (r : Registry σ) (document key : String) (socket : SocketId)
    (info : Content) (now : Nat) :
    r.openSession document key socket info now =
      ((r.getOrCreate document).1.onRoom (r.getOrCreate document).2
        fun l => l.openSocket key socket info now, (r.getOrCreate document).2) := by
  simp only [openSession, register?, live_getOrCreate, if_true, Option.getD_some]

theorem host_openSession {P : σ → Prop} (hk : Host.Keeps P) {r : Registry σ} (h : P r.host)
    (document key : String) (socket : SocketId) (info : Content) (now : Nat) :
    P (r.openSession document key socket info now).1.host := by
  rw [openSession_eq]
  exact host_onRoom (by rwa [host_getOrCreate]) fun _ hl =>
    LiveRoom.host_perform hk hl ⟨now, .openSocket key socket info⟩

theorem tickRoom_fst (now : Nat)
    (state : Registry σ × List (String × LifecycleEvent) × List String) (entry : String × RoomId) :
    (tickRoom now state entry).1 = state.1.onRoom entry.2 (·.perform ⟨now, .tick⟩) := by
  obtain ⟨r, events, emptied⟩ := state
  have hfst := r.onRoom?_fst entry.2 fun l => ((l.tick now).1, (l.tick now).2,
    (l.tick now).1.room.isEmpty)
  rw [tickRoom]
  dsimp only
  split <;> exact hfst

section
variable {P : Registry σ → Prop} (now : Nat)

theorem tickRoom_keeps
    (hcall : ∀ (r : Registry σ) id call, LiveRoom.Call.OnOpenSockets call → P r →
      P (r.onRoom id (·.perform call)))
    (state : Registry σ × List (String × LifecycleEvent) × List String) (entry : String × RoomId)
    (h : P state.1) : P (tickRoom now state entry).1 := by
  rw [tickRoom_fst]
  exact hcall state.1 entry.2 ⟨now, .tick⟩ nofun h

theorem tickAll_keeps
    (hcall : ∀ (r : Registry σ) id call, LiveRoom.Call.OnOpenSockets call → P r →
      P (r.onRoom id (·.perform call)))
    (hgone : ∀ (r : Registry σ) document, P r → P (r.removeIfEmpty document).1) {r : Registry σ}
    (h : P r) : P (r.tickAll now).1 := by
  have hrooms : ∀ (entries : List (String × RoomId)) state, P (Prod.fst state) →
      P (entries.foldl (tickRoom now) state).1 := by
    intro entries
    induction entries with
    | nil => exact fun _ h => h
    | cons entry rest ih => exact fun state h => ih _ (tickRoom_keeps now hcall state entry h)
  have hemptied : ∀ (emptied : List String) (r : Registry σ), P r →
      P (emptied.foldl (fun r document => (r.removeIfEmpty document).1) r) := by
    intro emptied
    induction emptied with
    | nil => exact fun _ h => h
    | cons document rest ih => exact fun r h => ih _ (hgone r document h)
  exact hemptied _ _ (hrooms r.live.entries (r, [], []) h)

theorem kick_keeps
    (hcall : ∀ (r : Registry σ) id call, LiveRoom.Call.OnOpenSockets call → P r →
      P (r.onRoom id (·.perform call)))
    {r : Registry σ} (h : P r) (document key : String) : P (r.kick document key now).1 := by
  rw [kick]
  cases r.live.get? document with
  | none => exact h
  | some id =>
    have hnext := hcall r id ⟨now, .kick key⟩ nofun h
    exact (r.onRoom?_fst id fun l => l.kick key now) ▸ hnext

end

omit [Host σ] in
theorem live_removeIfEmpty {r : Registry σ} {room : Room} (hroom : r.room? id = some room)
    (hfull : room.isEmpty = false) {document : String} (hlive : r.live.get? document = some id)
    (document' : String) : (r.removeIfEmpty document').1.live.get? document = some id := by
  unfold removeIfEmpty
  split
  · exact hlive
  · rename_i found hfound
    split
    · rename_i hempty
      have hne : document ≠ document' := by
        rintro rfl
        rw [liveRoom?, hlive, Option.bind_some, hroom] at hfound
        cases hfound
        exact Bool.false_ne_true (hfull.symm.trans hempty)
      change (r.live.erase document').get? document = some id
      rw [get?_erase, if_neg hne, hlive]
    · exact hlive

def HasSocket (r : Registry σ) (id : RoomId) (key : String) (socket : SocketId) : Prop :=
  ∃ room, r.room? id = some room ∧ room.HasSocket key socket

variable {key : String} {socket : SocketId}

omit [Host σ] in
theorem hasSocket_congr {r r' : Registry σ} (h : r'.rooms = r.rooms) :
    r'.HasSocket id key socket ↔ r.HasSocket id key socket := by
  simp only [HasSocket, room?, h]

theorem hasSocket_perform {r : Registry σ} {call : LiveRoom.Call} (hcall : call.OnOpenSockets)
    {id' : RoomId} (h : (r.onRoom id' (·.perform call)).HasSocket id key socket) :
    r.HasSocket id key socket := by
  obtain ⟨room', hroom', s', hs', hsocket⟩ := h
  obtain ⟨-, hroom⟩ | ⟨rfl, room, hroom, rfl⟩ := room?_onRoom_cases hroom'
  · exact ⟨room', hroom, s', hs', hsocket⟩
  · obtain ⟨s, hs, hsocket⟩ := LiveRoom.inherits_perform hcall key s' socket hs' hsocket
    exact ⟨room, hroom, s, hs, hsocket⟩

omit [Host σ] in
theorem hasSocket_removeIfEmpty {r : Registry σ} {document : String}
    (h : (r.removeIfEmpty document).1.HasSocket id key socket) : r.HasSocket id key socket :=
  (hasSocket_congr (r.rooms_removeIfEmpty document)).1 h

omit [Host σ] in
theorem hasSocket_getOrCreate {r : Registry σ} {document : String}
    (h : (r.getOrCreate document).1.HasSocket id key socket) : r.HasSocket id key socket := by
  obtain ⟨_, _, he⟩ | ⟨-, he⟩ := r.getOrCreate_cases document
  · rwa [he] at h
  · rw [he] at h
    obtain ⟨room, hroom, s, hs, hsocket⟩ := h
    obtain hroom | ⟨-, rfl⟩ := getElem?_append_singleton hroom
    · exact ⟨room, hroom, s, hs, hsocket⟩
    · rw [createRoom] at hs
      split at hs <;> cases hs

theorem hasSocket_openSocket {r : Registry σ} {id' : RoomId} {key k : String}
    {socket t : SocketId} {info : Content} {now : Nat}
    (h : (r.onRoom id' fun l => l.openSocket key socket info now).HasSocket id k t) :
    (id = id' ∧ k = key ∧ t = socket) ∨ (¬(id = id' ∧ k = key) ∧ r.HasSocket id k t) := by
  obtain ⟨room', hroom', s', hs', ht⟩ := h
  obtain ⟨hid, hroom⟩ | ⟨rfl, room, hroom, rfl⟩ := room?_onRoom_cases hroom'
  · exact .inr ⟨fun hsame => hid hsame.1, room', hroom, s', hs', ht⟩
  · obtain ⟨hk, ht⟩ | ⟨hk, s, hs, ht⟩ := LiveRoom.socket_openSocket _ hs' ht
    · exact .inl ⟨rfl, hk, ht⟩
    · exact .inr ⟨fun hsame => hk hsame.2, room, hroom, s, hs, ht⟩

theorem hasSocket_openSession {r : Registry σ} {document k : String} {t : SocketId}
    {info : Content} {now : Nat}
    (h : (r.openSession document key socket info now).1.HasSocket id k t) :
    (id = (r.openSession document key socket info now).2 ∧ k = key ∧ t = socket) ∨
      (¬(id = (r.openSession document key socket info now).2 ∧ k = key) ∧ r.HasSocket id k t) := by
  rw [openSession_eq] at h ⊢
  exact (hasSocket_openSocket h).imp_right fun hother => hother.imp_right hasSocket_getOrCreate

end Registry

end RoomSync
