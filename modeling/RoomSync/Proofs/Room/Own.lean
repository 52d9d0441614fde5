import RoomSync.Proofs.Room.Supply
import RoomSync.Proofs.Room.Hydration

namespace RoomSync

open Table Room

namespace LiveRoom

variable {σ : Type} [Host σ] {l l' : LiveRoom (Journal σ)} {key : String} {socket : SocketId}
  {now : Nat} {past ms : List Moment} {deed : Deed}

def Free (l : LiveRoom (Journal σ)) (socket : SocketId) : Prop :=
  ∀ k s, l.room.session? k = some s → s.socket? ≠ some socket

omit [Host σ] in
theorem Free.alone (h : l.Free socket) (key : String) : l.room.Alone key socket :=
  fun k s hs hsocket => absurd hsocket (h k s hs)

omit [Host σ] in
theorem Free.stage (h : l.Free socket) (key : String) : (l.seat key socket).stage = none := by
  cases hs : l.room.session? key with
  | none => simp [seat, hs]
  | some s =>
    simp only [seat, hs, Option.bind_some]
    exact Session.stage?_of_socket_ne (h key s hs)

theorem Turn.free (ht : Turn now deed l l') (hfree : l.Free socket)
    (hopens : ∀ k, deed ≠ .opens k socket) : l'.Free socket := by
  intro k s' hs' hsocket
  obtain ⟨s, hs, hsocket⟩ := ht.socket hopens hs' hsocket
  exact hfree k s hs hsocket

theorem Turns.free (ht : Turns now ms l l') (hfree : l.Free socket) : l'.Free socket := by
  induction ht with
  | refl l => exact hfree
  | step ht _ ih => exact ih (ht.free hfree nofun)

theorem seat_succeed (h : l.Free socket) (info : Content) (now : Nat) :
    (l.succeed key socket info now).seat key socket =
      { l.seat key socket with stage := some .waiting } := by
  have hstart : ∀ resume info, (Session.start socket now resume info).stage? socket =
      some .waiting := fun _ _ => if_pos rfl
  cases hs : l.room.session? key with
  | none => rw [succeed_of_none hs, seat_seated, hstart]
  | some old =>
    obtain ⟨info', he⟩ := succeed_of_some hs socket info now
    have hsession : (l.room.seated key (.start socket now old.successor info')).session? key =
        some (.start socket now old.successor info') :=
      (l.room.session?_seated key key _).trans (if_pos rfl)
    have hclosed := (l.mem_closed_left key old).trans (or_iff_right (h key old hs))
    rw [he]
    simp only [seat, hsession, Option.bind_some, hstart, l.taken_left key old socket,
      decide_eq_decide.2 hclosed]

theorem seat_accept (hs : l.room.Placed) (ha : l.room.Alone key socket) {s : Session}
    {waiting : Waiting} (hsocket : waiting.socket = socket) (request : ConnectRequest) (now : Nat) :
    (l.accept key s waiting request now).1.seat key socket =
        { l.seat key socket with
          taken := (l.seat key socket).taken ++
            [.connected (l.accept key s waiting request now).2]
          stage := some (.connected (some request.presenceId)
            (.start (l.accept key s waiting request now).1.room.clock now)) } ∨
      (l.accept key s waiting request now).1.seat key socket =
        ⟨(l.seat key socket).taken, true, none⟩ := by
  let l₁ := l.readied key s request now
  let seated : LiveRoom (Journal σ) :=
    ⟨l₁.room.seated key (l₁.guest s waiting request now), l₁.host⟩
  have hclock : (l.accept key s waiting request now).1.room.clock = l₁.room.clock :=
    (l.accept_told key s waiting request now).1.symm
  have hstage : (l₁.guest s waiting request now).stage? socket =
      some (.connected (some request.presenceId) (.start l₁.room.clock now)) := if_pos hsocket
  have hseat : (seated.note (.connected key waiting.resume.isSome)).seat key socket =
      { l.seat key socket with
        stage := some (.connected (some request.presenceId) (.start l₁.room.clock now)) } := by
    have h : seated.seat key socket = _ := seat_seated (l₁.guest s waiting request now)
    rw [l.seat_readied hs ha, hstage] at h
    exact h
  have hstage' := congrArg Seat.stage hseat
  rw [hclock]
  obtain he | he := seat_sendFrame_connected _ hstage' (.connected (l₁.offer waiting request)) now
  · rw [hseat] at he
    refine .inl (Eq.trans ?_ he)
    rw [← hsocket]
    rfl
  · rw [hseat] at he
    refine .inr (Eq.trans ?_ he)
    rw [← hsocket]
    rfl

theorem takes_serve (ha : l.room.Alone key socket) (hr : (l.seat key socket).Ready)
    (own : Option RecordId) (push : Push) (now : Nat) :
    Takes [.pushResult (l.room.answer own push)] (l.seat key socket)
      ((l.serve key own push now).seat key socket) := by
  obtain ⟨room, hroom⟩ : ∃ room, (l.room.applyPush own push).1 = room := ⟨_, rfl⟩
  have hsessions : room.sessions = l.room.sessions := hroom ▸ (applyPush_frame ..).2
  have hseat : seat ⟨room, l.host⟩ key socket = l.seat key socket :=
    seat_congr rfl .rfl (by rw [Room.session?, hsessions]; rfl)
  let answered : LiveRoom (Journal σ) :=
    sendData ⟨room, l.host⟩ key (.pushResult (l.room.answer own push)) now
  have hq : room.Steady answered.room := steady_sendData ⟨room, l.host⟩ key _ now
  have ha' : answered.room.Alone key socket :=
    hq.inherits.alone ((inherits_of_sessions hsessions).alone ha)
  have ht : Takes [.pushResult (l.room.answer own push)] (l.seat key socket)
      (answered.seat key socket) := by
    rw [← hseat] at hr ⊢
    exact takes_sendData ⟨room, l.host⟩ hr _
  rw [serve, hroom]
  split
  · exact ht
  · rw [answered.seat_broadcast_except ha']
    exact ht

theorem Attended.greets (h : Attended past l key socket) {s : Session} {waiting : Waiting}
    {request : ConnectRequest} (hsession : l.room.session? key = some s)
    (hw : s.state = .awaitingConnect waiting) (hsocket : waiting.socket = socket)
    (hf : l.room.presenceFault? key request.presenceId = none) (now : Nat) :
    Attended (past ++ [(l.accept key s waiting request now).1.room.moment])
      (l.accept key s waiting request now).1 key socket := by
  have ht : Turn now (.greets key request) l (l.accept key s waiting request now).1 :=
    .greets l hsession hw hf
  refine ⟨ht.chronicle h.chronicle, ht.alone nofun h.alone, fun own o hstage => ?_⟩
  obtain he | he := seat_accept h.chronicle.sound.placed h.alone hsocket request now
  · rw [he] at hstage
    obtain ⟨-, rfl⟩ := Stage.connected.inj (Option.some.inj hstage)
    exact ⟨rfl, Outbox.windowed_start _ now⟩
  · rw [he] at hstage
    cases hstage

theorem moment_serve (l : LiveRoom (Journal σ)) (key : String) (own : Option RecordId)
    (push : Push) (now : Nat) :
    (l.serve key own push now).room.moment = (l.room.applyPush own push).1.moment :=
  (l.steady_serve key own push now).moment

end LiveRoom

end RoomSync
