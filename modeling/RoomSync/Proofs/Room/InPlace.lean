import RoomSync.Proofs.Draft.Coalescing
import RoomSync.Proofs.Room.Own
import RoomSync.Proofs.Room.Reception

namespace RoomSync

open Table Room

namespace LiveRoom

variable {σ : Type} {l l' l'' : LiveRoom (Journal σ)} {key : String} {socket : SocketId}
  {now : Nat} {ms : List Moment} {deed : Deed}

/-- No other session has the socket, and the session that has it is sent everything. -/
structure InPlace (l : LiveRoom (Journal σ)) (key : String) (socket : SocketId) : Prop where
  placed : l.room.Placed
  alone : l.room.Alone key socket
  at_clock : (l.seat key socket).At l.room.clock

theorem Attended.inPlace {past : List Moment} (h : Attended past l key socket) :
    InPlace l key socket := ⟨h.chronicle.sound.placed, h.alone, h.at_clock⟩

theorem Free.inPlace (h : l.Free socket) (hp : l.room.Placed) (key : String) :
    InPlace l key socket := ⟨hp, h.alone key, Seat.at_of_vacant (h.stage key) _⟩

/-- The room goes on without a result for the session that has the socket. -/
structure Bypasses (l l' : LiveRoom (Journal σ)) (key : String) (socket : SocketId) : Prop where
  inPlace : InPlace l' key socket
  takes : ∃ posted, settlements posted = [] ∧ Takes posted (l.seat key socket) (l'.seat key socket)

theorem InPlace.bypasses (h : InPlace l key socket) : Bypasses l l key socket :=
  ⟨h, [], rfl, .refl h.at_clock.ready⟩

theorem Bypasses.trans (h : Bypasses l l' key socket) (h' : Bypasses l' l'' key socket) :
    Bypasses l l'' key socket := by
  obtain ⟨posted, hposted, ht⟩ := h.takes
  obtain ⟨posted', hposted', ht'⟩ := h'.takes
  refine ⟨h'.inPlace, posted ++ posted', ?_, ht.trans ht'⟩
  rw [settlements_append, hposted, hposted']
  rfl

theorem Informed.bypassed (h : Informed key socket l l') :
    ∃ posted, settlements posted = [] ∧ Takes posted (l.seat key socket) (l'.seat key socket) := by
  cases h with
  | quiet _ ht => exact ⟨[], rfl, ht⟩
  | moved _ _ _ ht => exact ⟨_, rfl, ht⟩
  | gone ht _ => exact ⟨[], rfl, ht⟩

/-- A room goes from one state to a later one, by itself and by one deed at most. -/
structure Unfolds (deed : Deed) (l l' : LiveRoom (Journal σ)) : Prop where
  placed : l'.room.Placed
  bypasses : ∀ key socket, InPlace l key socket →
    ¬deed.Concerns key socket (l.seat key socket).stage → Bypasses l l' key socket
  free : ∀ socket, l.Free socket → (∀ k, deed ≠ .opens k socket) → l'.Free socket

theorem Unfolds.seat_of_free (h : Unfolds deed l l') (hp : l.room.Placed) (hfree : l.Free socket)
    (hdeed : ∀ k, deed ≠ .opens k socket) (key : String) :
    l'.seat key socket = l.seat key socket := by
  have hvacant := hfree.stage key
  have hb := h.bypasses key socket (hfree.inPlace hp key) fun hconcerns => by
    cases deed with
    | inner => exact hconcerns
    | opens k t => exact hdeed k (congrArg (Deed.opens k) hconcerns)
    | greets k request => cases hvacant.symm.trans hconcerns.2
    | serves k push => exact hconcerns.2 hvacant
  obtain ⟨_, -, htakes⟩ := hb.takes
  exact htakes.eq_of_vacant hvacant

theorem unfolds_of_same (hp : l.room.Placed) (hroom : l'.room = l.room)
    (htaken : l'.host.taken = l.host.taken) (hclosed : l'.host.closed = l.host.closed) :
    Unfolds deed l l' := by
  have hseat : ∀ key socket, l'.seat key socket = l.seat key socket := fun key socket => by
    rw [seat, seat, hroom, htaken, hclosed]
  refine ⟨hroom ▸ hp, fun key socket hin _ => ⟨⟨hroom ▸ hp, hroom ▸ hin.alone, ?_⟩, ?_⟩,
    fun socket hfree _ => ?_⟩
  · rw [hseat, hroom]
    exact hin.at_clock
  · rw [hseat]
    exact hin.bypasses.takes
  · rw [Free, hroom]
    exact hfree

def Fresh (l : LiveRoom (Journal σ)) (opened : Nat) : Prop :=
  ∀ socket, opened ≤ socket → l.Free socket ∧ ∀ key, l.seat key socket = ⟨[], false, none⟩

theorem fresh_start {room : Room} (h : ∀ key, room.session? key = none) (host : σ) (opened : Nat) :
    Fresh ⟨room, .start host⟩ opened := by
  refine fun socket _ => ⟨fun k s hs => ?_, fun key => ?_⟩
  · cases (h k).symm.trans hs
  · change (⟨[], decide (socket ∈ []), (room.session? key).bind _⟩ : Seat) = _
    rw [h key]
    rfl

theorem Fresh.unfolds {opened opened' : Nat} (h : l.Fresh opened) (hp : l.room.Placed)
    (hu : Unfolds deed l l') (hle : opened ≤ opened') (hopens : ∀ k t, deed = .opens k t → t < opened') :
    l'.Fresh opened' := by
  intro socket hsocket
  obtain ⟨hfree, hseat⟩ := h socket (Nat.le_trans hle hsocket)
  have hno : ∀ k, deed ≠ .opens k socket := fun k he => Nat.not_lt.2 hsocket (hopens k socket he)
  exact ⟨hu.free socket hfree hno, fun key => (hu.seat_of_free hp hfree hno key).trans (hseat key)⟩

variable [Host σ]

namespace InPlace

theorem turn (h : InPlace l key socket) (ht : Turn now deed l l')
    (hdeed : ¬deed.Concerns key socket (l.seat key socket).stage) : Bypasses l l' key socket := by
  have hi := ht.informed h.placed h.alone h.at_clock hdeed
  refine ⟨⟨ht.placed h.placed, ht.alone (fun k he => hdeed ?_) h.alone, hi.at_clock h.at_clock⟩,
    hi.bypassed⟩
  subst he
  rfl

theorem turns (h : InPlace l key socket) (ht : Turns now ms l l') : Bypasses l l' key socket := by
  induction ht with
  | refl l => exact h.bypasses
  | step ht _ ih =>
    have hs := h.turn ht id
    exact hs.trans (ih hs.inPlace)

theorem episode (h : InPlace l key socket) (he : Episode now deed ms l l')
    (hdeed : ¬deed.Concerns key socket (l.seat key socket).stage) : Bypasses l l' key socket := by
  cases he with
  | undone ht => exact h.turns ht
  | done ht hdone =>
    have hs := h.turns ht
    obtain ⟨_, -, htakes⟩ := hs.takes
    exact hs.trans (hs.inPlace.turn hdone fun hc => hdeed (concerns_of_takes htakes hc))

end InPlace

theorem Episode.unfolds (he : Episode now deed ms l l') (hp : l.room.Placed) : Unfolds deed l l' := by
  refine ⟨he.placed hp, fun key socket hin hdeed => hin.episode he hdeed, fun socket hfree hopens => ?_⟩
  cases he with
  | undone ht => exact ht.free hfree
  | done ht hdone => exact hdone.free (ht.free hfree) hopens

theorem InPlace.heeds_connect (h : InPlace l key socket)
    (hw : (l.seat key socket).stage = some .waiting) {request : ConnectRequest}
    (hkey : request.sessionKey = key) (now : Nat)
    (hl' : l.heed key (.connect request) now = l') :
    InPlace l' key socket ∧
      ((l'.seat key socket).stage = none ∧ (l'.seat key socket).closed = true ∨
        ∃ accepted resumed, l'.seat key socket =
            { l.seat key socket with
              taken := (l.seat key socket).taken ++ [.connected accepted]
              stage := some (.connected (some request.presenceId) (.start l'.room.clock now)) } ∧
          accepted.clock = l'.room.clock ∧
          accepted.hydration =
            l'.room.hydration resumed request.lastKnownClock request.presenceId) := by
  obtain ⟨s, w, hs, hstate, hsocket⟩ := stage_eq_waiting hw
  have hphase : s.phase ≠ .awaitingRemoval := by simp [Session.phase, hstate]
  rw [l.heed_of_session now hs hphase] at hl'
  obtain ⟨msg, cause, e, hm, -, he⟩ | ha := l.connect_of_waiting now hs hstate hkey
  · have hsocket : s.socket? = some w.socket := by rw [Session.socket?, hstate]
    rw [hear_eq, touched_of_waiting hs hstate, dispatch, he] at hl'
    dsimp only at hl'
    rw [concluded_of_none _ _ (session?_remove ..)] at hl'
    subst hl'
    have hm := ServerMessage.isNotice_of_isFarewell hm
    have htold := h.turn (.tell l hs hsocket hm : Turn now .inner l _) id
    have hgone := htold.trans
      (htold.inPlace.turn (.remove _ key cause : Turn now .inner _ _) id)
    have hstage : (((l.tell w.socket msg).remove key cause now).seat key socket).stage = none := by
      rw [seat, session?_remove]
      rfl
    obtain ⟨_, -, htakes⟩ := hgone.takes
    have hsome : (l.seat key socket).stage ≠ none := by simp [hw]
    exact ⟨hgone.inPlace, .inl ⟨hstage, htakes.closed_of_gone hsome hstage⟩⟩
  · rw [hear_of_admitted ha] at hl'
    obtain rfl : (l.accept key s w request now).1 = l' := hl'
    have ht : Turn now (.greets key request) l (l.accept key s w request now).1 :=
      .greets l hs hstate ha.presenceId
    have halone := ht.alone (fun _ hd => by cases hd) h.alone
    have htold := l.accept_told key s w request now
    obtain he | he := seat_accept h.placed h.alone hsocket request now
    · refine ⟨⟨ht.placed h.placed, halone, fun own o hstage => ?_⟩,
        .inr ⟨_, _, he, htold⟩⟩
      rw [he] at hstage
      obtain ⟨-, rfl⟩ := Stage.connected.inj (Option.some.inj hstage)
      exact ⟨rfl, Outbox.windowed_start _ now⟩
    · have hgone : ((l.accept key s w request now).1.seat key socket).stage = none := by rw [he]
      refine ⟨⟨ht.placed h.placed, halone, Seat.at_of_vacant hgone _⟩,
        .inl ⟨hgone, by rw [he]⟩⟩

/-- A room answers a push, and posts the result to the session that made it. -/
structure Replies (now : Nat) (l l' : LiveRoom (Journal σ)) (key : String) (socket : SocketId)
    (own : Option RecordId) (push : Push) : Prop where
  inPlace : InPlace l' key socket
  received : l.receivePush key push now = (l', .ok (l.room.answer own push))
  takes : Takes [.pushResult (l.room.answer own push)] (l.seat key socket) (l'.seat key socket)
  moment : l'.room.moment = (l.room.applyPush own push).1.moment

theorem InPlace.heeds_push (h : InPlace l key socket) {own : Option RecordId} {o : Outbox}
    (hstage : (l.seat key socket).stage = some (.connected own o)) {push : Push}
    (hkey : push.sessionKey = key) (now : Nat) (hl' : l.heed key (.push push) now = l') :
    Replies now l l' key socket own push := by
  obtain ⟨s, c, hs, hstate, -, -, rfl⟩ := stage_eq_connected hstage
  have hphase : s.phase ≠ .awaitingRemoval := by simp [Session.phase, hstate]
  have hconnected : s.isConnected = true := by simp [Session.isConnected, Session.phase, hstate]
  -- The push is noted as a sign of life before it is made.
  let l₁ : LiveRoom (Journal σ) := { l with room := l.room.modifySession key (·.touch now) }
  have hs₁ : l₁.room.session? key = some (s.touch now) := by
    rw [session?_modifySession, if_pos rfl, hs]
    rfl
  have hreceived := l.receivePush_of_connected now hs hconnected hkey
  rw [answer_touch] at hreceived
  rw [l.heed_of_session now hs hphase, hear_of_connected hs hconnected hkey, hreceived] at hl'
  obtain rfl : l₁.serve key s.presenceId push now = l' := hl'
  have h₁ : InPlace l₁ key socket := (h.turn (.touch l key : Turn now .inner l _) id).inPlace
  have ht : Turn now (.serves key push) l₁ (l₁.serve key s.presenceId push now) := by
    rw [← s.presenceId_touch now]
    exact .serves l₁ hs₁ ((s.isConnected_touch now).trans hconnected)
  have halone := ht.alone (fun _ hd => by cases hd) h₁.alone
  have htakes := takes_serve h₁.alone h₁.at_clock.ready s.presenceId push now
  refine ⟨⟨ht.placed h₁.placed, halone, h₁.at_clock.takes htakes ?_⟩, hreceived, ?_, ?_⟩
  · exact congrArg Moment.clock (l₁.moment_serve key s.presenceId push now).symm
  · rwa [answer_touch, show l₁.seat key socket = l.seat key socket from l.seat_touch key now]
      at htakes
  · rw [moment_serve, applyPush_touch]
    rfl

theorem Free.openSocket_inPlace (h : l.Free socket) (hp : l.room.Placed) (info : Content) (now : Nat)
    (hl' : l.openSocket key socket info now = l') :
    InPlace l' key socket ∧
      l'.seat key socket = { l.seat key socket with stage := some .waiting } := by
  obtain ⟨ms, he, -⟩ := l.brief_expire now key .inner
  have hvacant := h.stage key
  have hexpired := (h.inPlace hp key).turns he.turns
  obtain ⟨_, -, htakes⟩ := hexpired.takes
  have hfree : (l.expire key now).Free socket := he.turns.free h
  rw [openSocket_eq] at hl'
  subst hl'
  have hseat : ((l.expire key now).succeed key socket info now).seat key socket =
      { l.seat key socket with stage := some .waiting } := by
    rw [seat_succeed hfree, htakes.eq_of_vacant hvacant]
  have ht : Turn now (.opens key socket) (l.expire key now)
      ((l.expire key now).succeed key socket info now) := .opens _ key socket info
  refine ⟨⟨ht.placed hexpired.inPlace.placed, fun k s hs hsocket => ?_, fun own o hstage => ?_⟩,
    hseat⟩
  · obtain ⟨hk, -⟩ | ⟨-, hold⟩ := sockets_succeed key socket info now hs hsocket
    · exact hk
    · exact absurd hsocket (hfree k s hold)
  · rw [hseat] at hstage
    cases hstage

end LiveRoom

end RoomSync
