import RoomSync.Proofs.Room.Moment
import RoomSync.Room.Activity

namespace RoomSync.LiveRoom

open Table Room

variable {σ : Type} (l : LiveRoom σ)

theorem steady_setOutbox (key : String) (outbox : Outbox) :
    l.room.Steady (l.setOutbox key outbox).room :=
  l.room.steady_modifySession key fun s => .mapConnected s fun _ => rfl

theorem foldl_related {R : LiveRoom σ → LiveRoom σ → Prop} (hrefl : ∀ l, R l l)
    (htrans : ∀ {l l' l''}, R l l' → R l' l'' → R l l'') {α : Type}
    {f : LiveRoom σ → α → LiveRoom σ} (hf : ∀ l a, R l (f l a)) (as : List α) :
    R l (as.foldl f l) := by
  induction as generalizing l with
  | nil => exact hrefl l
  | cons a rest ih => exact htrans (hf l a) (ih (f l a))

variable [Host σ]

section
variable {key : String} (cause : CancelCause) (now : Nat)

theorem cancel_of_none (h : l.room.session? key = none) : l.cancel key cause now = l := by
  rw [cancel, h]

theorem cancel_of_connected {s : Session} {c : Connected} (h : l.room.session? key = some s)
    (hc : s.state = .connected c) :
    l.cancel key cause now =
      ⟨(l.room.seated key { s with state := .awaitingRemoval now }).note (.cancelled key cause),
        Host.close l.host c.socket⟩ := by
  have hconnected : s.isConnected = true := by simp [Session.isConnected, Session.phase, hc]
  simp only [cancel, h, Session.cancel, hc, hconnected, if_true]
  rfl

theorem cancel_of_not_connected {s : Session} (h : l.room.session? key = some s)
    (hc : ∀ c, s.state ≠ .connected c) :
    l.cancel key cause now = ⟨l.room.seated key s, l.host⟩ := by
  have hconnected : s.isConnected = false := by
    obtain ⟨presenceId, info, state⟩ := s
    cases state with
    | connected c => exact absurd rfl (hc c)
    | _ => rfl
  have hcancel : s.cancel l.host now = (s, l.host) := by
    rw [Session.cancel]
    split
    · rename_i c hs
      exact absurd hs (hc c)
    · rfl
  simp only [cancel, h, hcancel, hconnected, Bool.false_eq_true, if_false]
  rfl

theorem sendFrame_cases (socket : SocketId) (msg : ServerMessage) :
    ((Host.send l.host socket msg).2 = none ∧
        l.sendFrame key socket msg now = ⟨l.room, (Host.send l.host socket msg).1⟩) ∨
      ((Host.send l.host socket msg).2 ≠ none ∧
        ∃ cause, l.sendFrame key socket msg now =
          cancel ⟨l.room, (Host.send l.host socket msg).1⟩ key cause now) := by
  rw [sendFrame]
  obtain ⟨host, _ | _ | _⟩ := Host.send l.host socket msg
  · exact .inl ⟨rfl, rfl⟩
  · exact .inr ⟨nofun, _, rfl⟩
  · exact .inr ⟨nofun, _, rfl⟩

end

theorem steady_cancel (key : String) (cause : CancelCause) (now : Nat) :
    l.room.Steady (l.cancel key cause now).room := by
  unfold cancel
  cases hs : l.room.session? key with
  | none => exact .refl _
  | some s =>
    have hq := l.room.steady_seated hs (.cancel s l.host now)
    change l.room.Steady (if s.isConnected then _ else _ : Room)
    split
    · exact ⟨⟨hq.config, hq.store, hq.presence, hq.sessions⟩, hq.stays⟩
    · exact hq

/-- A relation that holds of whatever delivery does with the sessions of a room, because it holds of
what that is put together from: a socket is told, an outbox changes, a session is cancelled. -/
structure Delivery (now : Nat) (R : LiveRoom σ → LiveRoom σ → Prop) : Prop where
  refl : ∀ l, R l l
  trans : ∀ {l l' l''}, R l l' → R l' l'' → R l l''
  tell : ∀ (l : LiveRoom σ) socket msg, R l (l.tell socket msg)
  setOutbox : ∀ (l : LiveRoom σ) key outbox, R l (l.setOutbox key outbox)
  cancel : ∀ (l : LiveRoom σ) key cause, R l (l.cancel key cause now)

namespace Delivery

variable {now : Nat} {R : LiveRoom σ → LiveRoom σ → Prop} (h : Delivery now R)
include h

theorem foldl {α : Type} {f : LiveRoom σ → α → LiveRoom σ} (hf : ∀ l a, R l (f l a)) (as : List α) :
    R l (as.foldl f l) := l.foldl_related h.refl h.trans hf as

theorem sendFrame (key : String) (socket : SocketId) (msg : ServerMessage) :
    R l (l.sendFrame key socket msg now) := by
  obtain ⟨-, he⟩ | ⟨-, cause, he⟩ := @sendFrame_cases _ l _ key now socket msg <;> rw [he]
  · exact h.tell l socket msg
  · exact h.trans (h.tell l socket msg) (h.cancel _ key cause)

theorem sendData (key : String) (msg : DataMessage) : R l (l.sendData key msg now) := by
  unfold LiveRoom.sendData
  cases l.room.connected? key with
  | none => exact h.refl l
  | some c =>
    dsimp only
    have hset := h.setOutbox l key (c.outbox.enqueue msg now l.room.config).1
    split
    · exact h.trans hset (h.sendFrame _ key c.socket _)
    · exact hset
    · exact h.trans hset (h.cancel _ key .slowConsumer)

theorem sendPatch (changes : Changes) (key : String) : R l (sendPatch changes now l key) := by
  unfold LiveRoom.sendPatch
  cases l.room.connected? key with
  | none => exact h.refl l
  | some c => exact h.sendData l key _

theorem broadcast (changes : Changes) (except : Option String) :
    R l (l.broadcast changes except now) :=
  h.foldl l (fun l key => h.sendPatch l changes key) _

theorem dropPresence? (id? : Option RecordId) :
    R ⟨l.room.dropped id?, l.host⟩ (l.dropPresence? id? now) := by
  cases id? with
  | none => exact h.refl l
  | some id =>
    change R ⟨if l.room.presence.contains id then _ else l.room, l.host⟩ (l.dropPresence id now)
    unfold dropPresence
    split
    · exact h.broadcast ⟨_, l.host⟩ _ none
    · exact h.refl l

theorem pong (key : String) : R l (l.pong key now) := by
  unfold LiveRoom.pong
  split
  · exact h.sendFrame l key _ .pong
  · exact h.refl l

theorem flushSession (key : String) : R l (flushSession now l key) := by
  unfold LiveRoom.flushSession
  cases l.room.connected? key with
  | none => exact h.refl l
  | some c =>
    dsimp only
    have hset := h.setOutbox l key (c.outbox.flushDue now l.room.config.debounce).1
    split
    · exact hset
    · exact h.trans hset (h.sendFrame _ key c.socket _)

end Delivery

theorem delivery_steady (now : Nat) :
    Delivery now fun l l' : LiveRoom σ => l.room.Steady l'.room where
  refl _ := .refl _
  trans := .trans
  tell _ _ _ := .refl _
  setOutbox := steady_setOutbox
  cancel l key cause := l.steady_cancel key cause now

theorem steady_sendFrame (key : String) (socket : SocketId) (msg : ServerMessage) (now : Nat) :
    l.room.Steady (l.sendFrame key socket msg now).room :=
  (delivery_steady now).sendFrame l key socket msg

theorem steady_sendData (key : String) (msg : DataMessage) (now : Nat) :
    l.room.Steady (l.sendData key msg now).room :=
  (delivery_steady now).sendData l key msg

theorem steady_sendPatch (changes : Changes) (now : Nat) (key : String) :
    l.room.Steady (sendPatch changes now l key).room :=
  (delivery_steady now).sendPatch l changes key

theorem steady_broadcast (changes : Changes) (except : Option String) (now : Nat) :
    l.room.Steady (l.broadcast changes except now).room :=
  (delivery_steady now).broadcast l changes except

theorem steady_pong (key : String) (now : Nat) : l.room.Steady (l.pong key now).room :=
  (delivery_steady now).pong l key

theorem steady_flushSession (now : Nat) (key : String) :
    l.room.Steady (flushSession now l key).room :=
  (delivery_steady now).flushSession l key

theorem steady_dropPresence? (id? : Option RecordId) (now : Nat) :
    (l.room.dropped id?).Steady (l.dropPresence? id? now).room :=
  (delivery_steady now).dropPresence? l id?

end RoomSync.LiveRoom
