import RoomSync.Proofs.Room.Posting

namespace RoomSync

open Table Room

/-- A connected session has been sent everything up to a clock, or it is held back. -/
def Seat.At (seat : Seat) (clock : Nat) : Prop :=
  ∀ own o, seat.stage = some (.connected own o) → o.lastSent = clock ∧ o.Windowed

theorem Seat.At.ready {seat : Seat} {clock : Nat} (h : seat.At clock) : seat.Ready :=
  fun own o hs => (h own o hs).2

theorem Seat.not_connected {seat : Seat} (h : seat.stage = none) {own : Option RecordId}
    {o : Outbox} : seat.stage ≠ some (.connected own o) := by
  simp [h]

theorem Seat.at_of_vacant {seat : Seat} (h : seat.stage = none) (clock : Nat) : seat.At clock :=
  fun _ _ hc => absurd hc (Seat.not_connected h)

theorem Seat.At.takes {x y : Seat} {clock clock' : Nat} (h : x.At clock)
    {posted : List DataMessage} (ht : Takes posted x y) (hposted : sentUpTo clock posted = clock') :
    y.At clock' := by
  intro own o ho
  cases ht with
  | vacant hv hy => cases (hy ▸ hv).symm.trans ho
  | waiting _ hw hy _ => rw [hy] at ho; cases hw.symm.trans ho
  | connected own o o' msgs hx hy _ _ hlast hwindowed =>
    rw [hy] at ho
    obtain ⟨-, rfl⟩ := Stage.connected.inj (Option.some.inj ho)
    rw [hlast, (h _ _ hx).1]
    exact ⟨hposted, hwindowed⟩
  | lost _ _ _ hy _ _ => rw [hy] at ho; cases ho

namespace LiveRoom

variable {σ : Type} [Host σ] {l l₁ l' l'' : LiveRoom (Journal σ)} {key : String}
  {socket : SocketId} {now : Nat}

/-- The session that has the socket gets to know what happens in a room: nothing does, or a patch is
posted to it that tells everything, or it is gone. -/
inductive Informed (key : String) (socket : SocketId) (l l' : LiveRoom (Journal σ)) : Prop
  | quiet : l.room.Rests l'.room → Takes [] (l.seat key socket) (l'.seat key socket) →
      Informed key socket l l'
  | moved (changes : Changes) : Shift l.room l'.room changes →
      (∀ own o, (l.seat key socket).stage = some (.connected (some own) o) →
        changes.get? own = none) →
      Takes [.patch ⟨l.room.clock, l'.room.clock, changes⟩] (l.seat key socket)
        (l'.seat key socket) →
      Informed key socket l l'
  | gone : Takes [] (l.seat key socket) (l'.seat key socket) → (l'.seat key socket).stage = none →
      Informed key socket l l'

namespace Informed

omit [Host σ] in
theorem of_same (hr : (l.seat key socket).Ready) (hrests : l.room.Rests l'.room)
    (hseat : l'.seat key socket = l.seat key socket) : Informed key socket l l' := by
  refine .quiet hrests ?_
  rw [hseat]
  exact .refl hr

omit [Host σ] in
theorem before (h : Informed key socket l₁ l') (hrests : l.room.Rests l₁.room)
    (hseat : l₁.seat key socket = l.seat key socket) : Informed key socket l l' := by
  cases h with
  | quiet hr ht => exact .quiet (hrests.trans hr) (hseat ▸ ht)
  | moved changes hs hown ht =>
    have hclock : l₁.room.clock = l.room.clock := congrArg Moment.clock hrests.moment
    exact .moved changes (hrests.shift hs) (hseat ▸ hown) (hclock ▸ hseat ▸ ht)
  | gone ht hgone => exact .gone (hseat ▸ ht) hgone

omit [Host σ] in
theorem after (h : Informed key socket l l₁) (hrests : l₁.room.Rests l'.room)
    (hseat : l'.seat key socket = l₁.seat key socket) : Informed key socket l l' := by
  cases h with
  | quiet hr ht => exact .quiet (hr.trans hrests) (hseat ▸ ht)
  | moved changes hs hown ht =>
    have hclock : l'.room.clock = l₁.room.clock := congrArg Moment.clock hrests.moment
    exact .moved changes (hs.rests hrests) hown (hclock ▸ hseat ▸ ht)
  | gone ht hgone => exact .gone (hseat ▸ ht) (hseat ▸ hgone)

omit [Host σ] in
theorem of_vacant (hvacant : (l.seat key socket).stage = none)
    (hseat : l'.seat key socket = l.seat key socket) : Informed key socket l l' :=
  .gone (.vacant hvacant hseat) (hseat ▸ hvacant)

omit [Host σ] in
theorem seat_of_vacant (h : Informed key socket l l') (hvacant : (l.seat key socket).stage = none) :
    l'.seat key socket = l.seat key socket := by
  cases h with
  | quiet _ ht => exact ht.eq_of_vacant hvacant
  | moved _ _ _ ht => exact ht.eq_of_vacant hvacant
  | gone ht _ => exact ht.eq_of_vacant hvacant

omit [Host σ] in
theorem at_clock (h : Informed key socket l l') (hat : (l.seat key socket).At l.room.clock) :
    (l'.seat key socket).At l'.room.clock := by
  cases h with
  | quiet hr ht => exact hat.takes ht (congrArg Moment.clock hr.moment).symm
  | moved changes hs _ ht => exact hat.takes ht rfl
  | gone _ hgone => exact Seat.at_of_vacant hgone _

end Informed

theorem informed_dropPresence? (hs : l.room.Placed) (ha : l.room.Alone key socket)
    (hat : (l.seat key socket).At l.room.clock) (id? : Option RecordId)
    (hid : ∀ own o, (l.seat key socket).stage = some (.connected (some own) o) → id? ≠ some own)
    (now : Nat) : Informed key socket l (l.dropPresence? id? now) := by
  cases id? with
  | none => exact .of_same hat.ready ⟨rfl, rfl, rfl⟩ rfl
  | some id =>
    rw [dropPresence?, dropPresence]
    split
    · rename_i hcontains
      have hshift := hs.shift_dropped hcontains
      rw [Room.dropped, if_pos hcontains] at hshift
      generalize hr : ({ l.room with
        presence := l.room.presence.erase id
        store := l.room.store.advance } : Room) = r at hshift ⊢
      have hsessions : r.sessions = l.room.sessions := by rw [← hr]
      have hseat : seat ⟨r, l.host⟩ key socket = l.seat key socket :=
        seat_congr rfl .rfl (by rw [Room.session?, hsessions]; rfl)
      have hq := steady_broadcast ⟨r, l.host⟩ (Table.empty.insert id .remove) none now
      refine .moved _ (hshift.rests hq.rests) (fun own o hstage => ?_) ?_
      · rw [get?_insert, if_neg fun he => hid own o hstage (congrArg some he.symm)]
        rfl
      · have hclock : (broadcast ⟨r, l.host⟩ (Table.empty.insert id .remove) none now).room.clock =
            r.clock := congrArg Moment.clock hq.moment
        rw [hclock, ← hseat]
        exact takes_broadcast ⟨r, l.host⟩ ((inherits_of_sessions hsessions).alone ha)
          (hseat ▸ hat.ready) (fun own o h => (hat own o (hseat ▸ h)).1) _ (by simp)
    · exact .of_same hat.ready ⟨rfl, rfl, rfl⟩ rfl

theorem seat_dropPresence?_of_vacant (hs : l.room.Placed) (ha : l.room.Alone key socket)
    (hvacant : (l.seat key socket).stage = none) (id? : Option RecordId) (now : Nat) :
    (l.dropPresence? id? now).seat key socket = l.seat key socket :=
  (informed_dropPresence? hs ha (Seat.at_of_vacant hvacant _) id?
    (fun _ _ h => absurd h (Seat.not_connected hvacant)) now).seat_of_vacant hvacant

omit [Host σ] in
theorem stage?_isSome {s : Session} (h : s.socket? = some socket) : (s.stage? socket).isSome := by
  obtain ⟨presenceId, info, state⟩ := s
  cases state with
  | awaitingConnect w => simp [Session.stage?, Option.some.inj h]
  | connected c => simp [Session.stage?, Option.some.inj h]
  | awaitingRemoval since => cases h

theorem taken_left (key : String) (s : Session) (socket : SocketId) :
    (l.left key s).host.taken socket = l.host.taken socket := by
  rw [left]
  cases s.socket? with
  | none => rfl
  | some t => exact l.host.taken_close t socket

theorem mem_closed_left (key : String) (s : Session) :
    socket ∈ (l.left key s).host.closed ↔ s.socket? = some socket ∨ socket ∈ l.host.closed := by
  rw [left]
  cases s.socket? with
  | none => exact (or_iff_right (by simp)).symm
  | some t =>
    refine Journal.mem_closed_close.trans (or_congr_left ?_)
    rw [Option.some.injEq]
    exact eq_comm

theorem seat_left_of_ne (ha : l.room.Alone key socket) {k : String} (hk : k ≠ key) {s : Session}
    (hs : l.room.session? k = some s) : (l.left k s).seat key socket = l.seat key socket := by
  have hsession : (l.left k s).room.session? key = l.room.session? key := by
    rw [room_left, session?_without, if_neg hk.symm]
  exact seat_congr (l.taken_left k s socket)
    ((l.mem_closed_left k s).trans (or_iff_right fun he => hk (ha k s hs he))) hsession

theorem seat_left {s : Session} (hs : l.room.session? key = some s) :
    ((l.seat key socket).stage.isSome ∧
        (l.left key s).seat key socket = ⟨(l.seat key socket).taken, true, none⟩) ∨
      ((l.seat key socket).stage = none ∧
        (l.left key s).seat key socket = l.seat key socket) := by
  have hstage : (l.seat key socket).stage = s.stage? socket := by simp [seat, hs]
  have hsession : (l.left key s).room.session? key = none := by
    rw [room_left, session?_without, if_pos rfl]
  by_cases hsocket : s.socket? = some socket
  · refine .inl ⟨hstage ▸ stage?_isSome hsocket, ?_⟩
    have hclosed := (l.mem_closed_left key s).2 (.inl hsocket)
    rw [seat, hsession, taken_left, decide_eq_true hclosed]
    rfl
  · have hnone : (l.seat key socket).stage = none :=
      hstage.trans (Session.stage?_of_socket_ne hsocket)
    refine .inr ⟨hnone, ?_⟩
    have hclosed := (l.mem_closed_left key s).trans (or_iff_right hsocket)
    have htaken := l.taken_left key s socket
    have hnone : (l.room.session? key).bind (fun s => s.stage? socket) = none := hnone
    simp only [seat, hsession, hnone, htaken, decide_eq_decide.2 hclosed]
    rfl

theorem informed_remove (hs : l.room.Placed) (ha : l.room.Alone key socket)
    (hat : (l.seat key socket).At l.room.clock) (k : String) (cause : RemovalCause) (now : Nat) :
    Informed key socket l (l.remove k cause now) := by
  cases hsession : l.room.session? k with
  | none =>
    rw [remove, hsession]
    exact .of_same hat.ready ⟨rfl, rfl, rfl⟩ rfl
  | some s =>
    rw [remove_eq hsession]
    have hwithout : l.room.Quiet (l.left k s).room := by
      rw [room_left]
      exact l.room.quiet_without k
    have hs' := hs.quiet hwithout
    have ha' := hwithout.inherits.alone ha
    have hclock : (l.left k s).room.clock = l.room.clock := congrArg Moment.clock hwithout.moment
    by_cases hk : k = key
    · subst hk
      have hvacant : ((l.left k s).seat k socket).stage = none := by
        obtain ⟨-, he⟩ | ⟨hnone, he⟩ := seat_left hsession
        · rw [he]
        · rw [he, hnone]
      have hseat := seat_dropPresence?_of_vacant hs' ha' hvacant s.presenceId now
      suffices h : Informed k socket l ((l.left k s).dropPresence? s.presenceId now) from
        h.after ⟨rfl, rfl, rfl⟩ rfl
      refine .gone ?_ (hseat ▸ hvacant)
      rw [hseat]
      obtain ⟨hsome, he⟩ | ⟨hnone, he⟩ := seat_left hsession
      · obtain ⟨stage, hstage⟩ := Option.isSome_iff_exists.1 hsome
        exact .of_lost hstage he
      · exact .vacant hnone he
    · have hseat := seat_left_of_ne ha hk hsession
      have hat' : ((l.left k s).seat key socket).At (l.left k s).room.clock := by
        rw [hseat, hclock]
        exact hat
      refine .before (.after (informed_dropPresence? hs' ha' hat' s.presenceId ?_ now)
        ⟨rfl, rfl, rfl⟩ rfl) hwithout.rests hseat
      intro own o hstage hid
      obtain ⟨t, c, ht, -, -, -, hown⟩ := stage_eq_connected (hseat ▸ hstage)
      exact hk (hs.apart k key s t own hsession ht hid hown)

omit [Host σ] in
theorem stage_of_waiting {s : Session} {w : Waiting} (hs : l.room.session? key = some s)
    (hw : s.state = .awaitingConnect w) (socket : SocketId) :
    (l.seat key socket).stage = if w.socket = socket then some .waiting else none := by
  simp [seat, hs, Session.stage?, hw]

omit [Host σ] in
theorem seat_seated_of_ne {k : String} (hk : k ≠ key) (s : Session) :
    seat ⟨l.room.seated k s, l.host⟩ key socket = l.seat key socket :=
  seat_congr rfl .rfl ((l.room.session?_seated k key s).trans (if_neg hk.symm))

omit [Host σ] in
theorem seat_seated (s : Session) :
    seat ⟨l.room.seated key s, l.host⟩ key socket =
      { l.seat key socket with stage := s.stage? socket } := by
  have hs : (l.room.seated key s).session? key = some s :=
    (l.room.session?_seated key key s).trans (if_pos rfl)
  simp only [seat, hs]
  rfl

omit [Host σ] in
theorem seat_forget (l : LiveRoom (Journal σ)) (key : String) (socket : SocketId) :
    (l.forget key).seat key socket = { l.seat key socket with stage := none } := by
  have hn : (l.forget key).room.session? key = none :=
    (l.room.session?_without key key).trans (if_pos rfl)
  simp only [seat, hn]
  rfl

theorem seat_readied (hs : l.room.Placed) (ha : l.room.Alone key socket) (s : Session)
    (request : ConnectRequest) (now : Nat) :
    (l.readied key s request now).seat key socket = { l.seat key socket with stage := none } := by
  have hwithout : l.room.Quiet (l.forget key).room := l.room.quiet_without key
  have hvacant : ((l.forget key).seat key socket).stage = none := by rw [seat_forget]
  rw [← seat_forget]
  exact seat_dropPresence?_of_vacant (hs.quiet hwithout) (hwithout.inherits.alone ha) hvacant _ now

theorem informed_accept (hs : l.room.Placed) (ha : l.room.Alone key socket)
    (hat : (l.seat key socket).At l.room.clock) {k : String} {s : Session} {waiting : Waiting}
    (hsession : l.room.session? k = some s) (hw : s.state = .awaitingConnect waiting)
    (hother : k = key → (l.seat key socket).stage ≠ some .waiting) (request : ConnectRequest)
    (now : Nat) : Informed key socket l (l.accept k s waiting request now).1 := by
  have hsocket : waiting.socket ≠ socket := fun he => by
    have hk : k = key := ha k s hsession (by rw [Session.socket?, hw, ← he])
    subst hk
    exact hother rfl ((stage_of_waiting hsession hw socket).trans (if_pos he))
  let l₁ := l.readied k s request now
  let seated : LiveRoom (Journal σ) :=
    ⟨l₁.room.seated k (l₁.guest s waiting request now), l₁.host⟩
  have hwelcome : (l.accept k s waiting request now).1 = l₁.welcome k s waiting request now := rfl
  rw [hwelcome]
  by_cases hk : k = key
  · subst hk
    have hvacant : (l.seat k socket).stage = none :=
      (stage_of_waiting hsession hw socket).trans (if_neg hsocket)
    have hreadied : l₁.seat k socket = l.seat k socket := by
      rw [l.seat_readied hs ha]
      rw [← hvacant]
    have hseat : seated.seat k socket = l.seat k socket := by
      have hstage : (l₁.guest s waiting request now).stage? socket = none := if_neg hsocket
      rw [seat_seated, hreadied, hstage, ← hvacant]
    refine .of_vacant hvacant ?_
    rw [← hseat] at hvacant ⊢
    exact seat_sendFrame_vacant (seated.note _) hvacant hsocket _
  · have hwithout : l.room.Quiet (l.forget k).room := l.room.quiet_without k
    have hclock : (l.forget k).room.clock = l.room.clock := congrArg Moment.clock hwithout.moment
    have hforget : (l.forget k).seat key socket = l.seat key socket :=
      seat_congr rfl .rfl ((l.room.session?_without k key).trans (if_neg (Ne.symm hk)))
    have hat' : ((l.forget k).seat key socket).At (l.forget k).room.clock := by
      rw [hforget, hclock]
      exact hat
    have hrests : l₁.room.Rests (l₁.welcome k s waiting request now).room :=
      Rests.trans (⟨rfl, rfl, rfl⟩ : l₁.room.Rests seated.room)
        (l₁.steady_welcome k s waiting request now).rests
    refine .after (.before (informed_dropPresence? (hs.quiet hwithout)
      (hwithout.inherits.alone ha) hat' _ ?_ now) hwithout.rests hforget) hrests ?_
    · intro own o hstage hid
      obtain ⟨hid, -⟩ := Option.filter_eq_some_iff.1 hid
      obtain ⟨t, c, ht, -, -, -, hown⟩ := stage_eq_connected (hforget ▸ hstage)
      exact hk (hs.apart k key s t own hsession ht hid hown)
    · have hseat : seated.seat key socket = l₁.seat key socket := seat_seated_of_ne hk _
      have hguest := (inherits_guest hsession hw request now).alone ha
      exact (seat_sendFrame_of_ne _ hguest hk hsocket _).trans hseat

theorem informed_serve (hs : l.room.Placed) (ha : l.room.Alone key socket)
    (hat : (l.seat key socket).At l.room.clock) {k : String} {s : Session}
    (hsession : l.room.session? k = some s)
    (hother : k = key → (l.seat key socket).stage = none) (push : Push) (now : Nat) :
    Informed key socket l (l.serve k s.presenceId push now) := by
  obtain ⟨room, hroom⟩ : ∃ room, (l.room.applyPush s.presenceId push).1 = room := ⟨_, rfl⟩
  have hsessions : room.sessions = l.room.sessions := hroom ▸ (applyPush_frame ..).2
  have hseat : seat ⟨room, l.host⟩ key socket = l.seat key socket :=
    seat_congr rfl .rfl (by rw [Room.session?, hsessions]; rfl)
  have ha₁ : room.Alone key socket := (inherits_of_sessions hsessions).alone ha
  let changes := (l.room.applyPush s.presenceId push).2.changes
  let l₁ : LiveRoom (Journal σ) :=
    sendData ⟨room, l.host⟩ k (.pushResult (l.room.answer s.presenceId push)) now
  have hq : room.Steady l₁.room := steady_sendData ⟨room, l.host⟩ k _ now
  have ha₂ : l₁.room.Alone key socket := hq.inherits.alone ha₁
  have hserve : l.serve k s.presenceId push now =
      if changes.isEmpty then l₁ else l₁.broadcast changes (some k) now := by
    rw [serve, hroom]
  by_cases hk : k = key
  · subst hk
    have hvacant := hother rfl
    have hl₁ : l₁.seat k socket = l.seat k socket := by
      rw [← hseat] at hvacant ⊢
      exact (takes_sendData ⟨room, l.host⟩ (Seat.at_of_vacant hvacant 0).ready _).eq_of_vacant hvacant
    refine .of_vacant hvacant ?_
    rw [hserve]
    split
    · exact hl₁
    · rw [l₁.seat_broadcast_except ha₂, hl₁]
  · have hl₁ : l₁.seat key socket = l.seat key socket :=
      (seat_sendData_of_ne ⟨room, l.host⟩ ha₁ hk _).trans hseat
    have hchange := l.change_serve k s.presenceId push now
    rw [hserve] at hchange ⊢
    obtain ⟨hempty, hrests⟩ | ⟨hchanges, hshift⟩ := hchange
    · have hempty : changes.isEmpty = true := isEmpty_iff.2 hempty
      rw [if_pos hempty] at hrests ⊢
      exact .of_same hat.ready hrests hl₁
    · have hchanges : ¬changes.isEmpty = true := fun h => hchanges (isEmpty_iff.1 h)
      rw [if_neg hchanges] at hshift ⊢
      refine .moved _ hshift (fun own o hstage => ?_) ?_
      · -- The pusher writes nothing under the presence id of somebody else.
        obtain ⟨t, c, ht, -, -, -, hown⟩ := stage_eq_connected hstage
        refine applyPush_reserved _ _ push (isPresenceId_of_session ht hown) fun hid => ?_
        exact hk (hs.apart k key s t own hsession ht hid hown)
      · have hclock : (l₁.broadcast changes (some k) now).room.clock = l₁.room.clock :=
          congrArg Moment.clock (l₁.steady_broadcast changes (some k) now).moment
        rw [hclock, ← hl₁]
        exact l₁.takes_broadcast ha₂ (hl₁ ▸ hat.ready) (fun own o h => (hat own o (hl₁ ▸ h)).1) _
          fun he => hk (Option.some.inj he)

theorem informed_succeed (ha : l.room.Alone key socket) (hat : (l.seat key socket).At l.room.clock)
    (k : String) {t : SocketId} (ht : t ≠ socket) (info : Content) (now : Nat) :
    Informed key socket l (l.succeed k t info now) := by
  have hrests := l.rests_succeed k t info now
  have hstart : ∀ resume info, (Session.start t now resume info).stage? socket = none :=
    fun _ _ => if_neg ht
  cases hs : l.room.session? k with
  | none =>
    rw [succeed_of_none hs] at hrests ⊢
    by_cases hk : k = key
    · subst hk
      have hvacant : (l.seat k socket).stage = none := by simp [seat, hs]
      refine .of_vacant hvacant ?_
      rw [seat_seated, hstart, ← hvacant]
    · exact .of_same hat.ready hrests (seat_seated_of_ne hk _)
  | some old =>
    obtain ⟨info', he⟩ := succeed_of_some hs t info now
    rw [he] at hrests ⊢
    by_cases hk : k = key
    · subst hk
      have hsession : (l.room.seated k (.start t now old.successor info')).session? k =
          some (.start t now old.successor info') :=
        (l.room.session?_seated k k _).trans (if_pos rfl)
      have hnone : (l.left k old).room.session? k = none := by
        rw [room_left, session?_without, if_pos rfl]
      have hseat : seat ⟨l.room.seated k (.start t now old.successor info'), (l.left k old).host⟩ k
          socket = (l.left k old).seat k socket := by
        simp only [seat, hsession, hnone, Option.bind_some, hstart, Option.bind_none]
      obtain ⟨hsome, hleft⟩ | ⟨hvacant, hleft⟩ := seat_left hs
      · obtain ⟨stage, hstage⟩ := Option.isSome_iff_exists.1 hsome
        exact .gone (.of_lost hstage (hseat.trans hleft)) (by rw [hseat, hleft])
      · exact .of_vacant hvacant (hseat.trans hleft)
    · refine .of_same hat.ready hrests ?_
      have hleft := seat_left_of_ne ha hk hs
      have hsession : (l.room.seated k (.start t now old.successor info')).session? key =
          (l.left k old).room.session? key := by
        rw [room_left, session?_without, session?_seated, if_neg (Ne.symm hk), if_neg (Ne.symm hk)]
      have hseat : seat ⟨l.room.seated k (.start t now old.successor info'), (l.left k old).host⟩
          key socket = (l.left k old).seat key socket := seat_congr rfl .rfl hsession
      exact hseat.trans hleft

omit [Host σ] in
theorem seat_touch (l : LiveRoom (Journal σ)) (k : String) (now : Nat) :
    seat { l with room := l.room.modifySession k (·.touch now) } key socket =
      l.seat key socket := by
  have hs : (l.room.modifySession k (·.touch now)).session? key =
      if key = k then (l.room.session? key).map (·.touch now) else l.room.session? key :=
    l.room.session?_modifySession k key _
  simp only [seat, hs]
  by_cases hk : key = k
  · rw [if_pos hk]
    cases l.room.session? key with
    | none => rfl
    | some s =>
      obtain ⟨presenceId, info, state⟩ := s
      cases state <;> rfl
  · rw [if_neg hk]

omit [Host σ] in
theorem takes_notice {y : Seat} (hr : (l.seat key socket).Ready) {stage : Stage}
    (hstage : (l.seat key socket).stage = some stage) {msg : ServerMessage}
    (hnotice : msg.isNotice = true)
    (hy : y = { l.seat key socket with taken := (l.seat key socket).taken ++ [msg] }) :
    Takes [] (l.seat key socket) y := by
  have hone : ∀ m ∈ [msg], m.isNotice = true := fun m hm => List.mem_singleton.1 hm ▸ hnotice
  cases stage with
  | waiting => exact .waiting [msg] hstage hy hone
  | connected own o =>
    refine .connected own o o [msg] hstage (by rw [hy, ← hstage])
      (fun m hm => ServerMessage.isLater_of_isNotice (hone m hm)) ?_ rfl (hr own o hstage)
    rw [ServerMessage.contents_notices hone, List.append_nil]
    exact .refl _

theorem takes_tell (ha : l.room.Alone key socket) (hr : (l.seat key socket).Ready) {k : String}
    {s : Session} {t : SocketId} {msg : ServerMessage} (hs : l.room.session? k = some s)
    (ht : s.socket? = some t) (hnotice : msg.isNotice = true) :
    Takes [] (l.seat key socket) ((l.tell t msg).seat key socket) := by
  have hseat : (l.tell t msg).seat key socket = { l.seat key socket with
      taken := (l.seat key socket).taken ++
        if (Host.send l.host t msg).2 = none ∧ t = socket then [msg] else [] } := l.seat_send t msg
  by_cases htaken : (Host.send l.host t msg).2 = none ∧ t = socket
  · rw [if_pos htaken] at hseat
    obtain rfl := ha k s hs (htaken.2 ▸ ht)
    have hsome : (l.seat k socket).stage.isSome := by
      simp only [seat, hs, Option.bind_some]
      exact stage?_isSome (htaken.2 ▸ ht)
    obtain ⟨stage, hstage⟩ := Option.isSome_iff_exists.1 hsome
    exact takes_notice hr hstage hnotice hseat
  · rw [if_neg htaken, List.append_nil] at hseat
    rw [hseat]
    exact .refl hr

theorem takes_pong (ha : l.room.Alone key socket) (hr : (l.seat key socket).Ready) (k : String) :
    Takes [] (l.seat key socket) ((l.pong k now).seat key socket) := by
  rw [pong]
  cases ht : (l.room.session? k).bind Session.socket? with
  | none => exact .refl hr
  | some t =>
    obtain ⟨s, hs, ht⟩ := Option.bind_eq_some_iff.1 ht
    dsimp only
    by_cases hsocket : t = socket
    · subst hsocket
      obtain rfl := ha k s hs ht
      have hsome : (l.seat k t).stage.isSome := by
        simp only [seat, hs, Option.bind_some]
        exact stage?_isSome ht
      obtain ⟨stage, hstage⟩ := Option.isSome_iff_exists.1 hsome
      cases stage with
      | waiting =>
        obtain he | he := l.seat_sendFrame_waiting hstage .pong now
        · exact takes_notice hr hstage rfl he
        · rw [he]
          exact .refl hr
      | connected own o =>
        obtain he | he := l.seat_sendFrame_connected hstage .pong now
        · exact takes_notice hr hstage rfl he
        · exact .of_lost hstage he
    · by_cases hk : k = key
      · subst hk
        have hvacant : (l.seat k socket).stage = none := by
          simp only [seat, hs, Option.bind_some]
          exact Session.stage?_of_socket_ne fun he => hsocket (Option.some.inj (ht.symm.trans he))
        rw [l.seat_sendFrame_vacant hvacant hsocket]
        exact .refl hr
      · rw [l.seat_sendFrame_of_ne ha hk hsocket]
        exact .refl hr

/-- The socket may notice more of a turn than a patch. -/
def Deed.Concerns (key : String) (socket : SocketId) (stage : Option Stage) : Deed → Prop
  | .inner => False
  | .opens _ t => t = socket
  | .greets k _ => k = key ∧ stage = some .waiting
  | .serves k _ => k = key ∧ stage ≠ none

/-- What a socket gets to know of a turn that is not its session's own. -/
theorem Turn.informed {deed : Deed} (h : Turn now deed l l') (hs : l.room.Placed)
    (ha : l.room.Alone key socket) (hat : (l.seat key socket).At l.room.clock)
    (hdeed : ¬deed.Concerns key socket (l.seat key socket).stage) : Informed key socket l l' := by
  cases h with
  | note => exact .of_same hat.ready ⟨rfl, rfl, rfl⟩ rfl
  | touch _ k =>
    exact .of_same hat.ready ⟨rfl, rfl, rfl⟩ (l.seat_touch k now)
  | cancel _ k cause =>
    refine .quiet (l.steady_cancel k cause now).rests ?_
    by_cases hk : k = key
    · subst hk
      exact l.takes_cancel hat.ready cause
    · rw [l.seat_cancel_of_ne ha hk]
      exact .refl hat.ready
  | @tell _ k s t msg hsession hsocket hnotice =>
    exact .quiet ⟨rfl, rfl, rfl⟩ (takes_tell ha hat.ready hsession hsocket hnotice)
  | pong _ k =>
    exact .quiet (l.steady_pong k now).rests (takes_pong ha hat.ready k)
  | flush _ k =>
    refine .quiet (l.steady_flushSession now k).rests ?_
    by_cases hk : k = key
    · subst hk
      exact l.takes_flushSession hat.ready
    · rw [l.seat_flushSession_of_ne ha hk]
      exact .refl hat.ready
  | remove _ k cause => exact informed_remove hs ha hat k cause now
  | opens _ k t info => exact informed_succeed ha hat k hdeed info now
  | greets _ hsession hw _ =>
    exact informed_accept hs ha hat hsession hw (fun hk hstage => hdeed ⟨hk, hstage⟩) _ now
  | serves _ hsession hc =>
    refine informed_serve hs ha hat hsession (fun hk => ?_) _ now
    exact Classical.not_not.1 fun hstage => hdeed ⟨hk, hstage⟩

end LiveRoom

end RoomSync
