import RoomSync.Proofs.Room.Delivery
import RoomSync.Proofs.Room.Push

namespace RoomSync

open Table Room

def ServerMessage.isNotice : ServerMessage → Bool
  | .connected _ | .data _ => false
  | .rejectConnect _ | .pong | .error _ => true

def ServerMessage.isFarewell : ServerMessage → Bool
  | .rejectConnect _ | .error _ => true
  | .connected _ | .data _ | .pong => false

theorem ServerMessage.isNotice_of_isFarewell {msg : ServerMessage} (h : msg.isFarewell = true) :
    msg.isNotice = true := by
  cases msg with
  | rejectConnect _ | error _ => rfl
  | connected _ | data _ | pong => cases h

namespace LiveRoom

variable {σ : Type} [Host σ]

/-- The part of opening a socket that is left once an expired session is gone. -/
def succeed (l : LiveRoom σ) (key : String) (socket : SocketId) (info : Content) (now : Nat) :
    LiveRoom σ :=
  match l.room.session? key with
  | none => { l with room := l.room.seated key (.start socket now none info) }
  | some old =>
    let l := match old.socket? with
      | some previous => l.close previous
      | none => l
    let info := if info = .null then old.info else info
    { l with room := l.room.seated key (.start socket now old.successor info) }

theorem openSocket_eq (l : LiveRoom σ) (key : String) (socket : SocketId) (info : Content)
    (now : Nat) :
    l.openSocket key socket info now = (l.expire key now).succeed key socket info now := rfl

def offer (l : LiveRoom σ) (waiting : Waiting) (request : ConnectRequest) : Accepted :=
  { clock := l.room.clock
    schemaVersion := l.room.config.schema.version
    resumed := waiting.resume.isSome
    hydration := l.room.hydration waiting.resume.isSome request.lastKnownClock request.presenceId }

def guest (l : LiveRoom σ) (s : Session) (waiting : Waiting) (request : ConnectRequest)
    (now : Nat) : Session :=
  ⟨some request.presenceId, s.info, .connected (waiting.accept request.schema l.room.clock now)⟩

/-- The part of a handshake that is left once the presence that the session does not keep is
gone. -/
def welcome (l : LiveRoom σ) (key : String) (s : Session) (waiting : Waiting)
    (request : ConnectRequest) (now : Nat) : LiveRoom σ :=
  let room := l.room.seated key (l.guest s waiting request now)
  let l' : LiveRoom σ := ⟨room.note (.connected key waiting.resume.isSome), l.host⟩
  l'.sendFrame key waiting.socket (.connected (l.offer waiting request)) now

def readied (l : LiveRoom σ) (key : String) (s : Session) (request : ConnectRequest) (now : Nat) :
    LiveRoom σ :=
  (l.forget key).dropPresence? (s.presenceId.filter fun old => old ≠ request.presenceId) now

theorem accept_eq (l : LiveRoom σ) (key : String) (s : Session) (waiting : Waiting)
    (request : ConnectRequest) (now : Nat) :
    l.accept key s waiting request now =
      ((l.readied key s request now).welcome key s waiting request now,
        (l.readied key s request now).offer waiting request) := rfl

def serve (l : LiveRoom σ) (key : String) (own : Option RecordId) (push : Push) (now : Nat) :
    LiveRoom σ :=
  let after := l.room.applyPush own push
  let l := sendData { l with room := after.1 } key (.pushResult (l.room.answer own push)) now
  if after.2.changes.isEmpty then l else l.broadcast after.2.changes (some key) now

inductive Deed where
  | inner
  | opens (key : String) (socket : SocketId)
  | greets (key : String) (request : ConnectRequest)
  | serves (key : String) (push : Push)

/-- One thing that happens in a room. -/
inductive Turn (now : Nat) : Deed → LiveRoom σ → LiveRoom σ → Prop
  | note (l : LiveRoom σ) (forbidden : List String) (events : List LifecycleEvent) :
      Turn now .inner l { l with room := { l.room with forbidden, events } }
  | touch (l : LiveRoom σ) (key : String) :
      Turn now .inner l { l with room := l.room.modifySession key (·.touch now) }
  | cancel (l : LiveRoom σ) (key : String) (cause : CancelCause) :
      Turn now .inner l (l.cancel key cause now)
  | tell (l : LiveRoom σ) {key : String} {s : Session} {socket : SocketId} {msg : ServerMessage} :
      l.room.session? key = some s → s.socket? = some socket → msg.isNotice = true →
      Turn now .inner l (l.tell socket msg)
  | pong (l : LiveRoom σ) (key : String) : Turn now .inner l (l.pong key now)
  | flush (l : LiveRoom σ) (key : String) : Turn now .inner l (flushSession now l key)
  | remove (l : LiveRoom σ) (key : String) (cause : RemovalCause) :
      Turn now .inner l (l.remove key cause now)
  | opens (l : LiveRoom σ) (key : String) (socket : SocketId) (info : Content) :
      Turn now (.opens key socket) l (l.succeed key socket info now)
  | greets (l : LiveRoom σ) {key : String} {s : Session} {waiting : Waiting}
      {request : ConnectRequest} :
      l.room.session? key = some s → s.state = .awaitingConnect waiting →
      l.room.presenceFault? key request.presenceId = none →
      Turn now (.greets key request) l (l.accept key s waiting request now).1
  | serves (l : LiveRoom σ) {key : String} {s : Session} {push : Push} :
      l.room.session? key = some s → s.isConnected = true →
      Turn now (.serves key push) l (l.serve key s.presenceId push now)

variable (l : LiveRoom σ)

omit [Host σ] in
theorem steady_note (event : LifecycleEvent) : l.room.Steady (l.note event).room :=
  ⟨⟨rfl, rfl, rfl, fun _ s h => ⟨s, h, .refl s⟩⟩, fun _ h => h⟩

def left (l : LiveRoom σ) (key : String) (s : Session) : LiveRoom σ :=
  match s.socket? with
  | some socket => (l.forget key).close socket
  | none => l.forget key

theorem room_left (key : String) (s : Session) : (l.left key s).room = l.room.without key := by
  rw [left]
  cases s.socket? <;> rfl

variable {l} in
theorem succeed_of_none {k : String} (hs : l.room.session? k = none) (t : SocketId) (info : Content)
    (now : Nat) :
    l.succeed k t info now = ⟨l.room.seated k (.start t now none info), l.host⟩ := by
  rw [succeed, hs]

variable {l} in
theorem succeed_of_some {k : String} {old : Session} (hs : l.room.session? k = some old)
    (t : SocketId) (info : Content) (now : Nat) :
    ∃ info', l.succeed k t info now =
      ⟨l.room.seated k (.start t now old.successor info'), (l.left k old).host⟩ := by
  refine ⟨if info = .null then old.info else info, ?_⟩
  rw [succeed, hs]
  dsimp only
  rw [left]
  cases old.socket? <;> rfl

variable {l} in
theorem remove_eq {key : String} {s : Session} (hs : l.room.session? key = some s)
    (cause : RemovalCause) (now : Nat) :
    l.remove key cause now =
      ((l.left key s).dropPresence? s.presenceId now).note (.removed key cause) := by
  cases hsocket : s.socket? <;> simp only [remove, hs, left, hsocket]

theorem steady_remove {key : String} {s : Session} (hs : l.room.session? key = some s)
    (cause : RemovalCause) (now : Nat) :
    ((l.room.without key).dropped s.presenceId).Steady (l.remove key cause now).room := by
  rw [remove_eq hs, ← l.room_left key s]
  exact (steady_dropPresence? _ s.presenceId now).trans (steady_note _ _)

theorem steady_welcome (key : String) (s : Session) (waiting : Waiting) (request : ConnectRequest)
    (now : Nat) :
    (l.room.seated key (l.guest s waiting request now)).Steady
      (l.welcome key s waiting request now).room := by
  have hq := steady_note ⟨l.room.seated key (l.guest s waiting request now), l.host⟩
    (.connected key waiting.resume.isSome)
  exact hq.trans (steady_sendFrame _ key waiting.socket _ now)

theorem steady_serve (key : String) (own : Option RecordId) (push : Push) (now : Nat) :
    (l.room.applyPush own push).1.Steady (l.serve key own push now).room := by
  have hq := steady_sendData ⟨(l.room.applyPush own push).1, l.host⟩ key
    (.pushResult (l.room.answer own push)) now
  unfold serve
  dsimp only
  split
  · exact hq
  · exact hq.trans (steady_broadcast _ _ _ now)

theorem rests_succeed (key : String) (socket : SocketId) (info : Content) (now : Nat) :
    l.room.Rests (l.succeed key socket info now).room := by
  unfold succeed
  split
  · exact ⟨rfl, rfl, rfl⟩
  · rename_i old _
    cases old.socket? <;> exact ⟨rfl, rfl, rfl⟩

variable {l} {l' : LiveRoom σ} {now : Nat} {deed : Deed}

theorem successor_presenceId {r : Room} (h : r.Placed) {key : String} {old : Session}
    (hold : r.session? key = some old) : old.successor.bind Resume.presenceId = old.presenceId := by
  rw [Session.successor]
  split
  · rename_i w hw
    exact h.waiting key old w hold hw
  · rfl
  · rfl

theorem placed_succeed (h : l.room.Placed) (key : String) (socket : SocketId) (info : Content)
    (now : Nat) : (l.succeed key socket info now).room.Placed := by
  unfold succeed
  split
  · exact h.seated nofun (fun w hw => by cases hw; rfl) nofun
  · rename_i old hold
    have hid := successor_presenceId h hold
    have hseat : ∀ info,
        (l.room.seated key (.start socket now old.successor info)).Placed := by
      refine fun info => h.seated (fun id hs => ?_) (fun w hw => ?_) fun id hs key' s' hne hs' he => ?_
      · exact h.reserved key old id hold (hid ▸ hs)
      · obtain rfl := SessionState.awaitingConnect.inj hw
        rfl
      · exact hne (h.apart key' key s' old id hs' hold he (hid ▸ hs))
    cases old.socket? with
    | none => exact hseat _
    | some previous => exact hseat _

theorem Turn.placed (h : Turn now deed l l') (hp : l.room.Placed) : l'.room.Placed := by
  cases h with
  | note => exact hp.quiet ⟨rfl, rfl, rfl, fun _ s h => ⟨s, h, .refl s⟩⟩
  | touch _ key => exact hp.quiet (l.room.steady_touch key now)
  | tell => exact hp
  | cancel _ key cause => exact hp.quiet (l.steady_cancel key cause now)
  | pong _ key => exact hp.quiet (l.steady_pong key now)
  | flush _ key => exact hp.quiet (l.steady_flushSession now key)
  | opens _ key socket info => exact placed_succeed hp key socket info now
  | remove _ key cause =>
    cases hsession : l.room.session? key with
    | none => rwa [LiveRoom.remove, hsession]
    | some s =>
      have hd := (hp.quiet (l.room.quiet_without key)).dropped s.presenceId
      exact hd.quiet (l.steady_remove hsession cause now)
  | @greets _ key s waiting request hsession hw hf =>
    let id? := s.presenceId.filter fun old => old ≠ request.presenceId
    have hd := (hp.quiet (l.room.quiet_without key)).dropped id?
    have hq : ((l.room.without key).dropped id?).Steady (l.readied key s request now).room :=
      steady_dropPresence? (l.forget key) id? now
    rw [accept_eq]
    refine Placed.quiet (Placed.seated (hd.quiet hq) (fun id hid => ?_) (fun w hw => ?_) ?_)
      (steady_welcome _ key s waiting request now).toQuiet
    · obtain rfl := Option.some.inj hid
      rw [hq.store, documents_dropped]
      exact (presenceFault?_eq_none hf).1
    · cases hw
    · rintro id hid key' s' hne hs' he
      obtain rfl := Option.some.inj hid
      obtain ⟨t, ht, hfades⟩ := hq.sessions key' s' hs'
      rw [session?_dropped, session?_without, if_neg hne] at ht
      exact (presenceFault?_eq_none hf).2 key' t hne ht (hfades.presenceId ▸ he)
  | @serves _ key s push hsession hc =>
    refine Placed.quiet ?_ (l.steady_serve key s.presenceId push now).toQuiet
    exact hp.applyPush push fun id hid => isPresenceId_of_session hsession hid

/-- What a turn does to the records: at most a presence record goes, or a push is made. -/
theorem Turn.alters (h : Turn now deed l l') :
    (∃ id?, (l.room.dropped id?).Rests l'.room) ∨
      ∃ key own push, deed = .serves key push ∧ (l.room.applyPush own push).1.Rests l'.room := by
  have hwithout : ∀ key id?, (l.room.dropped id?).Rests ((l.room.without key).dropped id?) :=
    fun key => (l.room.quiet_without key).rests.dropped
  cases h with
  | note => exact .inl ⟨none, rfl, rfl, rfl⟩
  | touch => exact .inl ⟨none, rfl, rfl, rfl⟩
  | tell => exact .inl ⟨none, rfl, rfl, rfl⟩
  | cancel _ key cause => exact .inl ⟨none, (l.steady_cancel key cause now).rests⟩
  | pong _ key => exact .inl ⟨none, (l.steady_pong key now).rests⟩
  | flush _ key => exact .inl ⟨none, (l.steady_flushSession now key).rests⟩
  | opens _ key socket info => exact .inl ⟨none, l.rests_succeed key socket info now⟩
  | remove _ key cause =>
    cases hsession : l.room.session? key with
    | none => rw [LiveRoom.remove, hsession]; exact .inl ⟨none, rfl, rfl, rfl⟩
    | some s =>
      exact .inl ⟨s.presenceId, (hwithout key _).trans (l.steady_remove hsession cause now).rests⟩
  | @greets _ key s waiting request _ _ _ =>
    let l₁ := l.readied key s request now
    have hready := (steady_dropPresence? (l.forget key)
      (s.presenceId.filter fun old => old ≠ request.presenceId) now).rests
    have hseat : l₁.room.Rests (l₁.room.seated key (l₁.guest s waiting request now)) :=
      ⟨rfl, rfl, rfl⟩
    rw [accept_eq]
    exact .inl ⟨_, (((hwithout key _).trans hready).trans hseat).trans
      (l₁.steady_welcome key s waiting request now).rests⟩
  | @serves _ key s push _ _ =>
    exact .inr ⟨key, s.presenceId, push, rfl, (l.steady_serve key s.presenceId push now).rests⟩

theorem Turn.documents (h : Turn now deed l l') (hdeed : ∀ key push, deed ≠ .serves key push) :
    l'.room.store.records = l.room.store.records := by
  obtain ⟨id?, hrests⟩ | ⟨key, _, push, rfl, -⟩ := h.alters
  · rw [hrests.store, documents_dropped]
  · exact absurd rfl (hdeed key push)

/-- What a turn does to the store: nothing, a move of the clock for presence alone, or the document
part of a push. -/
theorem Turn.store (h : Turn now deed l l') :
    l'.room.store = l.room.store ∨ l'.room.store = l.room.store.advance ∨
      ∃ mutations, l'.room.store = (l.room.stored mutations).1 := by
  obtain ⟨id?, hrests⟩ | ⟨_, own, push, -, hrests⟩ := h.alters <;> rw [hrests.store]
  · exact (l.room.store_dropped id?).imp_right .inl
  · obtain he | he := l.room.applyPush_store own push
    · exact .inr (.inr ⟨_, he⟩)
    · exact .inr (.inl he)

theorem Turn.sound (h : Turn now deed l l') (hk : l.room.config.schema.KeepsPresence)
    (hs : l.room.Sound) : l'.room.Sound := by
  refine (h.placed hs.placed).sound ?_ ?_ <;>
    obtain he | he | ⟨mutations, he⟩ := h.store <;> rw [he]
  · exact hs.store
  · exact (Store.follows_advance _).sound hs.store
  · exact stored_sound hs.store mutations
  · exact hs.moment.documents_typed
  · exact hs.moment.documents_typed
  · exact stored_documents_typed hk hs.moment.documents_typed mutations

theorem change_remove (h : l.room.Placed) {key : String} {s : Session}
    (hs : l.room.session? key = some s) (cause : RemovalCause) (now : Nat) :
    l.room.Rests (l.remove key cause now).room ∨
      ∃ id, s.presenceId = some id ∧
        Shift l.room (l.remove key cause now).room (Table.empty.insert id .remove) := by
  have hwithout := l.room.quiet_without key
  have hq := l.steady_remove hs cause now
  obtain hd | ⟨id, hid, -, hshift⟩ := (h.quiet hwithout).dropped_cases s.presenceId
  · exact .inl (hwithout.rests.trans (hd ▸ hq).rests)
  · exact .inr ⟨id, hid, (hwithout.rests.shift hshift).rests hq.rests⟩

theorem change_accept (h : l.room.Placed) (key : String) (s : Session) (waiting : Waiting)
    (request : ConnectRequest) (now : Nat) :
    l.room.Rests (l.accept key s waiting request now).1.room ∨
      ∃ id, s.presenceId = some id ∧ id ≠ request.presenceId ∧
        Shift l.room (l.accept key s waiting request now).1.room
          (Table.empty.insert id .remove) := by
  let id? := s.presenceId.filter fun old => old ≠ request.presenceId
  let l₁ := (l.forget key).dropPresence? id? now
  have hwithout := l.room.quiet_without key
  have hq : ((l.room.without key).dropped id?).Quiet l₁.room :=
    (steady_dropPresence? (l.forget key) id? now).toQuiet
  have hseat : l₁.room.Rests (l₁.room.seated key (l₁.guest s waiting request now)) :=
    ⟨rfl, rfl, rfl⟩
  have hw := hseat.trans (l₁.steady_welcome key s waiting request now).rests
  obtain hd | ⟨id, hid, -, hshift⟩ := (h.quiet hwithout).dropped_cases id?
  · exact .inl ((hwithout.rests.trans (hd ▸ hq).rests).trans hw)
  · obtain ⟨hid, hne⟩ := Option.filter_eq_some_iff.1 hid
    exact .inr ⟨id, hid, by simpa using hne,
      ((hwithout.rests.shift hshift).rests hq.rests).rests hw⟩

theorem change_serve (key : String) (own : Option RecordId) (push : Push) (now : Nat) :
    ((l.room.applyPush own push).2.changes = Table.empty ∧
        l.room.Rests (l.serve key own push now).room) ∨
      ((l.room.applyPush own push).2.changes ≠ Table.empty ∧
        Shift l.room (l.serve key own push now).room (l.room.applyPush own push).2.changes) := by
  have hq := l.steady_serve key own push now
  by_cases hc : (l.room.applyPush own push).2.changes = Table.empty
  · have hr := applyPush_of_empty push hc
    exact .inl ⟨hc, (hr ▸ hq).rests⟩
  · exact .inr ⟨hc, (shift_applyPush push hc).rests hq.rests⟩

theorem Turn.change (h : Turn now deed l l') (hs : l.room.Placed) :
    l.room.Rests l'.room ∨ ∃ changes, Shift l.room l'.room changes := by
  cases h with
  | note => exact .inl ⟨rfl, rfl, rfl⟩
  | touch => exact .inl ⟨rfl, rfl, rfl⟩
  | tell => exact .inl ⟨rfl, rfl, rfl⟩
  | cancel _ key cause => exact .inl (l.steady_cancel key cause now).rests
  | pong _ key => exact .inl (l.steady_pong key now).rests
  | flush _ key => exact .inl (l.steady_flushSession now key).rests
  | opens _ key socket info => exact .inl (l.rests_succeed key socket info now)
  | remove _ key cause =>
    cases hsession : l.room.session? key with
    | none => rw [LiveRoom.remove, hsession]; exact .inl ⟨rfl, rfl, rfl⟩
    | some s => exact (change_remove hs hsession cause now).imp id fun ⟨id, _, h⟩ => ⟨_, h⟩
  | @greets _ key s waiting request _ _ _ =>
    exact (change_accept hs key s waiting request now).imp id fun ⟨id, _, _, h⟩ => ⟨_, h⟩
  | serves _ _ _ => exact (change_serve ..).imp And.right fun h => ⟨_, h.2⟩

theorem inherits_guest {key : String} {s : Session} {waiting : Waiting}
    (hs : l.room.session? key = some s) (hw : s.state = .awaitingConnect waiting)
    (request : ConnectRequest) (now : Nat) :
    l.room.Inherits ((l.readied key s request now).room.seated key
      ((l.readied key s request now).guest s waiting request now)) := by
  let id? := s.presenceId.filter fun old => old ≠ request.presenceId
  have hd := inherits_of_sessions (sessions_dropped (l.room.without key) id?)
  have h₁ : l.room.Inherits (l.readied key s request now).room :=
    ((l.room.quiet_without key).inherits.trans hd).trans
      (steady_dropPresence? (l.forget key) id? now).inherits
  intro k s' socket hs' hsocket
  rw [session?_seated] at hs'
  split at hs'
  · rename_i hk
    obtain rfl := Option.some.inj hs'
    refine ⟨s, hk ▸ hs, ?_⟩
    rw [Session.socket?, hw]
    exact hsocket
  · exact h₁ k s' socket hs' hsocket

theorem Turn.sockets (h : Turn now deed l l') (hno : ∀ key socket, deed ≠ .opens key socket) :
    l.room.Inherits l'.room := by
  cases h with
  | note => exact inherits_of_sessions rfl
  | touch _ key => exact (l.room.steady_touch key now).inherits
  | tell => exact inherits_of_sessions rfl
  | cancel _ key cause => exact (l.steady_cancel key cause now).inherits
  | pong _ key => exact (l.steady_pong key now).inherits
  | flush _ key => exact (l.steady_flushSession now key).inherits
  | opens _ key socket info => exact absurd rfl (hno key socket)
  | remove _ key cause =>
    cases hs : l.room.session? key with
    | none => rw [LiveRoom.remove, hs]; exact inherits_of_sessions rfl
    | some s =>
      have hd := inherits_of_sessions (sessions_dropped (l.room.without key) s.presenceId)
      exact ((l.room.quiet_without key).inherits.trans hd).trans
        (l.steady_remove hs cause now).inherits
  | @greets _ key s waiting request hs hw _ =>
    exact (inherits_guest hs hw request now).trans
      (steady_welcome _ key s waiting request now).inherits
  | serves _ _ _ =>
    exact (inherits_of_sessions (applyPush_frame ..).2).trans (l.steady_serve _ _ _ now).inherits

theorem sockets_succeed (key : String) (socket : SocketId) (info : Content) (now : Nat) {k : String}
    {s' : Session} {t : SocketId} (hs' : (l.succeed key socket info now).room.session? k = some s')
    (ht : s'.socket? = some t) :
    (k = key ∧ t = socket) ∨ (k ≠ key ∧ l.room.session? k = some s') := by
  have hseat : ∀ resume info, (l.room.seated key (.start socket now resume info)).session? k =
      some s' → (k = key ∧ t = socket) ∨ (k ≠ key ∧ l.room.session? k = some s') := by
    intro resume info hs'
    rw [session?_seated] at hs'
    split at hs'
    · rename_i hk
      obtain rfl := Option.some.inj hs'
      exact .inl ⟨hk, (Option.some.inj ht).symm⟩
    · rename_i hk
      exact .inr ⟨hk, hs'⟩
  unfold succeed at hs'
  split at hs'
  · exact hseat _ _ hs'
  · rename_i old _
    cases hold : old.socket? with
    | none => rw [hold] at hs'; exact hseat _ _ hs'
    | some previous => rw [hold] at hs'; exact hseat _ _ hs'

theorem Turn.socket {socket : SocketId} (h : Turn now deed l l')
    (hopens : ∀ key, deed ≠ .opens key socket) {key : String} {s' : Session}
    (hs' : l'.room.session? key = some s') (hsocket : s'.socket? = some socket) :
    ∃ s, l.room.session? key = some s ∧ s.socket? = some socket := by
  by_cases hopen : ∃ k t, deed = .opens k t
  · obtain ⟨k, t, rfl⟩ := hopen
    cases h with
    | opens _ _ _ info =>
      obtain ⟨-, he⟩ | ⟨-, hs⟩ := sockets_succeed k t info now hs' hsocket
      · exact absurd (he ▸ rfl) (hopens k)
      · exact ⟨s', hs, hsocket⟩
  · exact h.sockets (fun k t he => hopen ⟨k, t, he⟩) key s' socket hs' hsocket

/-- What a room does by itself, turn after turn, with the moments that this leads to. -/
inductive Turns (now : Nat) : List Moment → LiveRoom σ → LiveRoom σ → Prop
  | refl (l : LiveRoom σ) : Turns now [] l l
  | step {l l' l'' : LiveRoom σ} {moments : List Moment} :
      Turn now .inner l l' → Turns now moments l' l'' →
      Turns now (l'.room.moment :: moments) l l''

theorem Turns.trans {ms ms' : List Moment} {l'' : LiveRoom σ} (h : Turns now ms l l')
    (h' : Turns now ms' l' l'') : Turns now (ms ++ ms') l l'' := by
  induction h with
  | refl l => exact h'
  | step ht _ ih => exact .step ht (ih h')

theorem Turns.last {ms : List Moment} (h : Turns now ms l l') :
    l'.room.moment ∈ l.room.moment :: ms := by
  induction h with
  | refl l => exact List.mem_cons_self
  | step _ _ ih => exact List.mem_cons_of_mem _ ih

theorem Turns.placed {ms : List Moment} (h : Turns now ms l l') (hp : l.room.Placed) :
    l'.room.Placed := by
  induction h with
  | refl l => exact hp
  | step ht _ ih => exact ih (ht.placed hp)

inductive Episode (now : Nat) (deed : Deed) : List Moment → LiveRoom σ → LiveRoom σ → Prop
  | undone {l l' : LiveRoom σ} {ms : List Moment} : Turns now ms l l' → Episode now deed ms l l'
  | done {l l' l'' : LiveRoom σ} {ms : List Moment} : Turns now ms l l' → Turn now deed l' l'' →
      Episode now deed (ms ++ [l''.room.moment]) l l''

namespace Episode

variable {ms ms' : List Moment} {l'' : LiveRoom σ}

theorem after (h : Turns now ms l l') (h' : Episode now deed ms' l' l'') :
    Episode now deed (ms ++ ms') l l'' := by
  cases h' with
  | undone ht => exact .undone (h.trans ht)
  | done ht hdeed =>
    rw [← List.append_assoc]
    exact .done (h.trans ht) hdeed

theorem last (h : Episode now deed ms l l') : l'.room.moment ∈ l.room.moment :: ms := by
  cases h with
  | undone ht => exact ht.last
  | done ht hdeed => exact List.mem_cons_of_mem _ (List.mem_append_right _ List.mem_cons_self)

theorem placed (h : Episode now deed ms l l') (hp : l.room.Placed) : l'.room.Placed := by
  cases h with
  | undone ht => exact ht.placed hp
  | done ht hdeed => exact hdeed.placed (ht.placed hp)

theorem turns (h : Episode now .inner ms l l') : Turns now ms l l' := by
  cases h with
  | undone ht => exact ht
  | done ht hdeed => exact ht.trans (.step hdeed (.refl _))

end Episode

def Brief (now : Nat) (deed : Deed) (l l' : LiveRoom σ) : Prop :=
  ∃ ms, Episode now deed ms l l' ∧ ∀ m ∈ ms, m = l.room.moment ∨ m = l'.room.moment

namespace Brief

variable {l'' : LiveRoom σ}

theorem refl (l : LiveRoom σ) : Brief now deed l l := ⟨[], .undone (.refl l), nofun⟩

theorem inner (h : Turn now .inner l l') : Brief now deed l l' :=
  ⟨_, .undone (.step h (.refl l')), fun _ hm => .inr (List.mem_singleton.1 hm)⟩

theorem one (h : Turn now deed l l') : Brief now deed l l' :=
  ⟨[l'.room.moment], .done (.refl l) h, fun _ hm => .inr (List.mem_singleton.1 hm)⟩

theorem cons (h : Turn now .inner l l') (hm : l'.room.moment = l.room.moment)
    (h' : Brief now deed l' l'') : Brief now deed l l'' := by
  obtain ⟨ms, hms, hmem⟩ := h'
  refine ⟨_, .after (.step h (.refl l')) hms, fun m hm' => ?_⟩
  obtain rfl | hm' := List.mem_cons.1 hm'
  · exact .inl hm
  · exact hm ▸ hmem m hm'

theorem concat (h : Brief now .inner l l') (h' : Turn now deed l' l'')
    (hm : l''.room.moment = l'.room.moment) : Brief now deed l l'' := by
  obtain ⟨ms, hms, hmem⟩ := h
  refine ⟨_, .done hms.turns h', fun m hm' => ?_⟩
  obtain hm' | hm' := List.mem_append.1 hm'
  · exact hm ▸ hmem m hm'
  · exact .inr (List.mem_singleton.1 hm')

end Brief

end LiveRoom

end RoomSync
