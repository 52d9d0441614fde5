import RoomSync.Proofs.Outbox
import RoomSync.Proofs.Room.Journal

namespace RoomSync

open Table Room

def ServerMessage.contents : ServerMessage → List DataMessage
  | .data batch => batch
  | _ => []

def ServerMessage.isLater : ServerMessage → Bool
  | .connected _ => false
  | _ => true

inductive Stage where
  | waiting
  | connected (own : Option RecordId) (outbox : Outbox)
deriving DecidableEq

def Session.stage? (s : Session) (socket : SocketId) : Option Stage :=
  match s.state with
  | .awaitingConnect w => if w.socket = socket then some .waiting else none
  | .connected c => if c.socket = socket then some (.connected s.presenceId c.outbox) else none
  | .awaitingRemoval _ => none

/-- A session as its socket sees it. Without a stage, the session does not have the socket. -/
structure Seat where
  taken : List ServerMessage
  closed : Bool
  stage : Option Stage

def sentUpTo (clock : Nat) (posted : List DataMessage) : Nat :=
  posted.foldl (fun _ msg => msg.clock) clock

def Stage.Loses (posted sent : List DataMessage) : Stage → Prop
  | .waiting => sent = []
  | .connected _ o => ∃ rest, Merges (o.held ++ posted) (sent ++ rest)

/-- What becomes of messages that are posted to a session: it has lost the socket, it waits for its
handshake and gets none, it sends them or holds them back, or it is lost. -/
inductive Takes (posted : List DataMessage) (x y : Seat) : Prop
  | vacant : x.stage = none → y = x → Takes posted x y
  | waiting (notices : List ServerMessage) : x.stage = some .waiting →
      y = { x with taken := x.taken ++ notices } → (∀ msg ∈ notices, msg.isNotice = true) →
      Takes posted x y
  | connected (own : Option RecordId) (o o' : Outbox) (msgs : List ServerMessage) :
      x.stage = some (.connected own o) →
      y = { x with taken := x.taken ++ msgs, stage := some (.connected own o') } →
      (∀ msg ∈ msgs, msg.isLater = true) →
      Merges (o.held ++ posted) (msgs.flatMap ServerMessage.contents ++ o'.held) →
      o'.lastSent = sentUpTo o.lastSent posted → o'.Windowed → Takes posted x y
  | lost (stage : Stage) (msgs : List ServerMessage) : x.stage = some stage →
      y = ⟨x.taken ++ msgs, true, none⟩ → (∀ msg ∈ msgs, msg.isLater = true) →
      stage.Loses posted (msgs.flatMap ServerMessage.contents) → Takes posted x y

def Seat.Ready (seat : Seat) : Prop :=
  ∀ own o, seat.stage = some (.connected own o) → o.Windowed

theorem ServerMessage.isLater_of_isNotice {msg : ServerMessage} (h : msg.isNotice = true) :
    msg.isLater = true := by
  cases msg with
  | connected _ => cases h
  | _ => rfl

theorem ServerMessage.contents_of_isNotice {msg : ServerMessage} (h : msg.isNotice = true) :
    msg.contents = [] := by
  cases msg with
  | data _ => cases h
  | _ => rfl

theorem ServerMessage.contents_notices {notices : List ServerMessage}
    (h : ∀ msg ∈ notices, msg.isNotice = true) : notices.flatMap contents = [] :=
  List.flatMap_eq_nil_iff.2 fun msg hm => contents_of_isNotice (h msg hm)

theorem sentUpTo_append (clock : Nat) (posted posted' : List DataMessage) :
    sentUpTo clock (posted ++ posted') = sentUpTo (sentUpTo clock posted) posted' :=
  List.foldl_append ..

namespace Takes

variable {posted posted' : List DataMessage} {x y z : Seat}

theorem refl (h : x.Ready) : Takes [] x x := by
  cases hx : x.stage with
  | none => exact .vacant hx rfl
  | some stage =>
    cases stage with
    | waiting => exact .waiting [] hx (by simp) nofun
    | connected own o =>
      refine .connected own o o [] hx (by rw [List.append_nil, ← hx]) nofun ?_ rfl (h own o hx)
      rw [List.append_nil]
      exact .refl _

theorem eq_of_vacant (h : Takes posted x y) (hx : x.stage = none) : y = x := by
  cases h with
  | vacant _ hy => exact hy
  | waiting _ hw _ _ => cases hx.symm.trans hw
  | connected _ _ _ _ hc _ _ _ _ _ => cases hx.symm.trans hc
  | lost _ _ hs _ _ _ => cases hx.symm.trans hs

theorem was_waiting (h : Takes posted x y) (hy : y.stage = some .waiting) :
    x.stage = some .waiting := by
  cases h with
  | vacant _ he => exact he ▸ hy
  | waiting _ hw _ _ => exact hw
  | connected _ _ _ _ _ he _ _ _ _ => rw [he] at hy; cases hy
  | lost _ _ _ he _ _ => rw [he] at hy; cases hy

theorem of_waiting (h : Takes posted x y) (hx : x.stage = some .waiting) (hy : y.closed = false) :
    ∃ notices, y = { x with taken := x.taken ++ notices } ∧ ∀ msg ∈ notices, msg.isNotice = true := by
  cases h with
  | vacant hv _ => cases hv.symm.trans hx
  | waiting notices _ he hn => exact ⟨notices, he, hn⟩
  | connected _ _ _ _ hc _ _ _ _ _ => cases hc.symm.trans hx
  | lost _ _ _ he _ _ =>
    rw [he] at hy
    cases hy

theorem closed (h : Takes posted x y) (hx : x.closed = true) : y.closed = true := by
  cases h with
  | vacant _ hy => exact hy ▸ hx
  | waiting _ _ hy _ => exact hy ▸ hx
  | connected _ _ _ _ _ hy _ _ _ _ => exact hy ▸ hx
  | lost _ _ _ hy _ _ => rw [hy]

theorem was_open (h : Takes posted x y) (hy : y.closed = false) : x.closed = false :=
  Bool.eq_false_iff.2 fun hx => Bool.eq_false_iff.1 hy (h.closed hx)

theorem open_of_stage (h : Takes posted x y) (hx : x.stage ≠ none → x.closed = false)
    (hy : y.stage ≠ none) : y.closed = false := by
  cases h with
  | vacant hv he => exact absurd (he ▸ hv) hy
  | waiting _ hw he _ =>
    rw [he]
    exact hx fun hv => nomatch hv.symm.trans hw
  | connected _ _ _ _ hc he _ _ _ _ =>
    rw [he]
    exact hx fun hv => nomatch hv.symm.trans hc
  | lost _ _ _ he _ _ => exact absurd (by rw [he]) hy

theorem closed_of_gone (h : Takes posted x y) (hx : x.stage ≠ none) (hy : y.stage = none) :
    y.closed = true := by
  cases h with
  | vacant hv _ => exact absurd hv hx
  | waiting _ hw he _ =>
    rw [he] at hy
    cases hw.symm.trans hy
  | connected _ _ _ _ _ he _ _ _ _ =>
    rw [he] at hy
    cases hy
  | lost _ _ _ he _ _ => rw [he]

theorem of_not_connected (hx : ∀ own o, x.stage ≠ some (.connected own o)) : Takes posted x x := by
  cases hs : x.stage with
  | none => exact .vacant hs rfl
  | some stage =>
    cases stage with
    | waiting => exact .waiting [] hs (by simp) nofun
    | connected own o => exact absurd hs (hx own o)

theorem trans (h : Takes posted x y) (h' : Takes posted' y z) : Takes (posted ++ posted') x z := by
  cases h with
  | vacant hx hy =>
    subst hy
    cases h' with
    | vacant _ hz => exact .vacant hx hz
    | waiting _ hw _ _ => cases hx.symm.trans hw
    | connected _ _ _ _ hc _ _ _ _ _ => cases hx.symm.trans hc
    | lost _ _ hs _ _ _ => cases hx.symm.trans hs
  | waiting notices hx hy hn =>
    subst hy
    cases h' with
    | vacant hv _ => cases hx.symm.trans hv
    | waiting notices' _ hz hn' =>
      refine .waiting (notices ++ notices') hx (by simp [hz]) fun msg hm => ?_
      exact (List.mem_append.1 hm).elim (hn msg) (hn' msg)
    | connected _ _ _ _ hc _ _ _ _ _ => cases hx.symm.trans hc
    | lost stage msgs hs hz hl hloses =>
      obtain rfl := Option.some.inj (hx.symm.trans hs)
      refine .lost .waiting (notices ++ msgs) hx (by simp [hz]) (fun msg hm => ?_) ?_
      · exact (List.mem_append.1 hm).elim
          (fun hm => ServerMessage.isLater_of_isNotice (hn msg hm)) (hl msg)
      · rw [List.flatMap_append, ServerMessage.contents_notices hn, List.nil_append]
        exact hloses
  | connected own o o' msgs hx hy hl hm hlast hwindowed =>
    subst hy
    cases h' with
    | vacant hv _ => cases hv
    | waiting _ hw _ _ => cases hw
    | connected own' o₁ o₂ msgs' hc hz hl' hm' hlast' hwindowed' =>
      obtain ⟨rfl, rfl⟩ := Stage.connected.inj (Option.some.inj hc)
      refine .connected _ o o₂ (msgs ++ msgs') hx (by simp [hz]) (fun msg hm => ?_) ?_ ?_
        hwindowed'
      · exact (List.mem_append.1 hm).elim (hl msg) (hl' msg)
      · rw [List.flatMap_append]
        exact hm.then_held hm'
      · rw [hlast', hlast, sentUpTo_append]
    | lost stage msgs' hs hz hl' hloses =>
      obtain rfl := Option.some.inj hs
      obtain ⟨rest, hrest⟩ := hloses
      refine .lost (.connected own o) (msgs ++ msgs') hx (by simp [hz]) (fun msg hm => ?_) ⟨rest, ?_⟩
      · exact (List.mem_append.1 hm).elim (hl msg) (hl' msg)
      · rw [List.flatMap_append]
        exact hm.then_held hrest
  | lost stage msgs hx hy hl hloses =>
    subst hy
    cases h' with
    | waiting _ hw _ _ => cases hw
    | connected _ _ _ _ hc _ _ _ _ _ => cases hc
    | lost _ _ hs _ _ _ => cases hs
    | vacant _ hz =>
      refine .lost stage msgs hx hz hl ?_
      cases stage with
      | waiting => exact hloses
      | connected own o =>
        obtain ⟨rest, hrest⟩ := hloses
        refine ⟨rest ++ posted', ?_⟩
        rw [← List.append_assoc, ← List.append_assoc]
        exact hrest.append_right posted'

theorem of_lost {stage : Stage} (hx : x.stage = some stage) (hy : y = ⟨x.taken, true, none⟩) :
    Takes posted x y := by
  refine .lost stage [] hx (by rw [hy, List.append_nil]) nofun ?_
  cases stage with
  | waiting => rfl
  | connected own o => exact ⟨_, .refl _⟩

end Takes

def Room.Alone (r : Room) (key : String) (socket : SocketId) : Prop :=
  ∀ k s, r.session? k = some s → s.socket? = some socket → k = key

theorem Room.Inherits.alone {r r' : Room} (h : r.Inherits r') {key : String} {socket : SocketId}
    (ha : r.Alone key socket) : r'.Alone key socket := by
  intro k s' hs' hsocket
  obtain ⟨s, hs, hsocket⟩ := h k s' socket hs' hsocket
  exact ha k s hs hsocket

theorem Session.stage?_of_socket_ne {s : Session} {socket : SocketId}
    (h : s.socket? ≠ some socket) : s.stage? socket = none := by
  obtain ⟨presenceId, info, state⟩ := s
  cases state with
  | awaitingConnect w => exact if_neg fun he => h (congrArg some he)
  | connected c => exact if_neg fun he => h (congrArg some he)
  | awaitingRemoval since => rfl

namespace LiveRoom

variable {σ : Type}

/-- The session of a key as a socket sees it. -/
def seat (l : LiveRoom (Journal σ)) (key : String) (socket : SocketId) : Seat :=
  ⟨l.host.taken socket, decide (socket ∈ l.host.closed),
    (l.room.session? key).bind fun s => s.stage? socket⟩

theorem seat_congr {l l' : LiveRoom (Journal σ)} {key : String} {socket : SocketId}
    (ht : l'.host.taken socket = l.host.taken socket)
    (hc : socket ∈ l'.host.closed ↔ socket ∈ l.host.closed)
    (hs : l'.room.session? key = l.room.session? key) : l'.seat key socket = l.seat key socket := by
  rw [seat, seat, ht, hs, decide_eq_decide.2 hc]

theorem stage_eq_connected {l : LiveRoom (Journal σ)} {key : String} {socket : SocketId}
    {own : Option RecordId} {o : Outbox} (h : (l.seat key socket).stage = some (.connected own o)) :
    ∃ s c, l.room.session? key = some s ∧ s.state = .connected c ∧ c.socket = socket ∧
      c.outbox = o ∧ s.presenceId = own := by
  obtain ⟨s, hs, hstage⟩ := Option.bind_eq_some_iff.1 h
  rw [Session.stage?] at hstage
  split at hstage
  · split at hstage <;> cases hstage
  · rename_i c hc
    split at hstage
    · rename_i hsocket
      obtain ⟨rfl, rfl⟩ := Stage.connected.inj (Option.some.inj hstage)
      exact ⟨s, c, hs, hc, hsocket, rfl, rfl⟩
    · cases hstage
  · cases hstage

theorem stage_eq_waiting {l : LiveRoom (Journal σ)} {key : String} {socket : SocketId}
    (h : (l.seat key socket).stage = some .waiting) :
    ∃ s w, l.room.session? key = some s ∧ s.state = .awaitingConnect w ∧ w.socket = socket := by
  obtain ⟨s, hs, hstage⟩ := Option.bind_eq_some_iff.1 h
  rw [Session.stage?] at hstage
  split at hstage
  · rename_i w hw
    split at hstage
    · rename_i hsocket
      exact ⟨s, w, hs, hw, hsocket⟩
    · cases hstage
  · split at hstage <;> cases hstage
  · cases hstage

variable [Host σ]

variable (l : LiveRoom (Journal σ)) {key : String} {socket : SocketId} {now : Nat}

theorem seat_cancel_of_ne (ha : l.room.Alone key socket) {k : String} (hk : k ≠ key)
    (cause : CancelCause) : (l.cancel k cause now).seat key socket = l.seat key socket := by
  cases hs : l.room.session? k with
  | none => rw [cancel_of_none l cause now hs]
  | some s =>
    by_cases hc : ∃ c, s.state = .connected c
    · obtain ⟨c, hc⟩ := hc
      have hne : socket ≠ c.socket := fun he =>
        hk (ha k s hs (by rw [Session.socket?, hc, he]))
      rw [cancel_of_connected l cause now hs hc]
      exact seat_congr (l.host.taken_close c.socket socket)
        (Journal.mem_closed_close.trans (or_iff_right hne))
        ((l.room.session?_seated k key _).trans (if_neg hk.symm))
    · rw [cancel_of_not_connected l cause now hs fun c h => hc ⟨c, h⟩]
      exact seat_congr rfl .rfl ((l.room.session?_seated k key _).trans (if_neg hk.symm))

theorem seat_cancel (key : String) (socket : SocketId) (cause : CancelCause) (now : Nat) :
    (∃ own o, (l.seat key socket).stage = some (.connected own o) ∧
        (l.cancel key cause now).seat key socket = ⟨(l.seat key socket).taken, true, none⟩) ∨
      ((∀ own o, (l.seat key socket).stage ≠ some (.connected own o)) ∧
        (l.cancel key cause now).seat key socket = l.seat key socket) := by
  cases hs : l.room.session? key with
  | none =>
    refine .inr ⟨fun own o h => ?_, by rw [cancel_of_none l cause now hs]⟩
    obtain ⟨s, _, hs', -⟩ := stage_eq_connected h
    cases hs.symm.trans hs'
  | some s =>
    by_cases hc : ∃ c, s.state = .connected c
    · obtain ⟨c, hc⟩ := hc
      rw [cancel_of_connected l cause now hs hc]
      have hsession : ((l.room.seated key { s with state := .awaitingRemoval now }).note
          (.cancelled key cause)).session? key = some { s with state := .awaitingRemoval now } :=
        (l.room.session?_seated key key _).trans (if_pos rfl)
      by_cases hsocket : c.socket = socket
      · refine .inl ⟨s.presenceId, c.outbox, ?_, ?_⟩
        · simp [seat, hs, Session.stage?, hc, hsocket]
        · simp only [seat, hsession, Journal.taken_close, Journal.mem_closed_close, hsocket,
            true_or, decide_true]
          rfl
      · have hstage : (l.seat key socket).stage = none := by
          simp [seat, hs, Session.stage?, hc, hsocket]
        refine .inr ⟨fun own o h => (nomatch hstage.symm.trans h), ?_⟩
        have hmem : socket ∈ (Host.close l.host c.socket).closed ↔ socket ∈ l.host.closed :=
          Journal.mem_closed_close.trans (or_iff_right (Ne.symm hsocket))
        have hstage : (l.room.session? key).bind (fun s => s.stage? socket) = none := hstage
        simp only [seat, hsession, hstage, Journal.taken_close, decide_eq_decide.2 hmem]
        rfl
    · rw [cancel_of_not_connected l cause now hs fun c h => hc ⟨c, h⟩]
      refine .inr ⟨fun own o h => ?_, ?_⟩
      · obtain ⟨s', c, hs', hstate, -⟩ := stage_eq_connected h
        obtain rfl := Option.some.inj (hs.symm.trans hs')
        exact hc ⟨c, hstate⟩
      · exact seat_congr rfl .rfl (((l.room.session?_seated key key s).trans (if_pos rfl)).trans
          hs.symm)

theorem takes_cancel (hr : (l.seat key socket).Ready) (cause : CancelCause) :
    Takes [] (l.seat key socket) ((l.cancel key cause now).seat key socket) := by
  obtain ⟨own, o, hstage, he⟩ | ⟨-, he⟩ := l.seat_cancel key socket cause now
  · exact .of_lost hstage he
  · rw [he]
    exact .refl hr

theorem seat_send (t : SocketId) (msg : ServerMessage) :
    seat ⟨l.room, (Host.send l.host t msg).1⟩ key socket =
      { l.seat key socket with
        taken := (l.seat key socket).taken ++
          if (Host.send l.host t msg).2 = none ∧ t = socket then [msg] else [] } := by
  rw [seat, Journal.taken_send, seat, Journal.closed_send]

theorem seat_sendFrame_of_ne (ha : l.room.Alone key socket) {k : String} (hk : k ≠ key)
    {t : SocketId} (ht : t ≠ socket) (msg : ServerMessage) :
    (l.sendFrame k t msg now).seat key socket = l.seat key socket := by
  have hsent : seat ⟨l.room, (Host.send l.host t msg).1⟩ key socket = l.seat key socket := by
    rw [seat_send]
    simp [ht]
  obtain ⟨-, he⟩ | ⟨-, cause, he⟩ := l.sendFrame_cases now t msg
  · rw [he, hsent]
  · rw [he, seat_cancel_of_ne ⟨l.room, (Host.send l.host t msg).1⟩ ha hk, hsent]

theorem seat_sendFrame_connected {own : Option RecordId} {o : Outbox}
    (hstage : (l.seat key socket).stage = some (.connected own o)) (msg : ServerMessage)
    (now : Nat) :
    (l.sendFrame key socket msg now).seat key socket =
        { l.seat key socket with taken := (l.seat key socket).taken ++ [msg] } ∨
      (l.sendFrame key socket msg now).seat key socket = ⟨(l.seat key socket).taken, true, none⟩ := by
  obtain ⟨hnone, he⟩ | ⟨herror, cause, he⟩ := l.sendFrame_cases now socket msg
  · rw [he, seat_send]
    exact .inl (by simp [hnone])
  · rw [he]
    have hsent : seat ⟨l.room, (Host.send l.host socket msg).1⟩ key socket = l.seat key socket := by
      rw [seat_send]
      simp [herror]
    obtain ⟨_, _, -, he⟩ | ⟨hno, -⟩ :=
      seat_cancel ⟨l.room, (Host.send l.host socket msg).1⟩ key socket cause now
    · rw [hsent] at he
      exact .inr he
    · exact absurd (hsent ▸ hstage) (hno own o)

theorem seat_sendFrame_vacant (hstage : (l.seat key socket).stage = none) {t : SocketId}
    (ht : t ≠ socket) (msg : ServerMessage) :
    (l.sendFrame key t msg now).seat key socket = l.seat key socket := by
  have hsent : seat ⟨l.room, (Host.send l.host t msg).1⟩ key socket = l.seat key socket := by
    rw [seat_send]
    simp [ht]
  obtain ⟨-, he⟩ | ⟨-, cause, he⟩ := l.sendFrame_cases now t msg
  · rw [he, hsent]
  · rw [he]
    obtain ⟨own, o, hconnected, -⟩ | ⟨-, he⟩ :=
      seat_cancel ⟨l.room, (Host.send l.host t msg).1⟩ key socket cause now
    · rw [hsent, hstage] at hconnected
      cases hconnected
    · rw [he, hsent]

theorem seat_sendFrame_waiting (hstage : (l.seat key socket).stage = some .waiting)
    (msg : ServerMessage) (now : Nat) :
    (l.sendFrame key socket msg now).seat key socket =
        { l.seat key socket with taken := (l.seat key socket).taken ++ [msg] } ∨
      (l.sendFrame key socket msg now).seat key socket = l.seat key socket := by
  obtain ⟨hnone, he⟩ | ⟨herror, cause, he⟩ := l.sendFrame_cases now socket msg
  · rw [he, seat_send]
    exact .inl (by simp [hnone])
  · rw [he]
    have hsent : seat ⟨l.room, (Host.send l.host socket msg).1⟩ key socket = l.seat key socket := by
      rw [seat_send]
      simp [herror]
    obtain ⟨own, o, hconnected, -⟩ | ⟨-, he⟩ :=
      seat_cancel ⟨l.room, (Host.send l.host socket msg).1⟩ key socket cause now
    · rw [hsent, hstage] at hconnected
      cases hconnected
    · exact .inr (he.trans hsent)

omit [Host σ] in
theorem seat_setOutbox_of_ne {k : String} (hk : k ≠ key) (outbox : Outbox) :
    (l.setOutbox k outbox).seat key socket = l.seat key socket :=
  seat_congr rfl .rfl ((l.room.session?_modifySession k key _).trans (if_neg hk.symm))

omit [Host σ] in
theorem seat_setOutbox (outbox : Outbox) :
    (l.setOutbox key outbox).seat key socket =
      { l.seat key socket with
        stage := match (l.seat key socket).stage with
          | some (.connected own _) => some (.connected own outbox)
          | stage => stage } := by
  have hs : (l.setOutbox key outbox).room.session? key =
      (l.room.session? key).map (·.mapConnected fun c => { c with outbox }) :=
    (l.room.session?_modifySession key key _).trans (if_pos rfl)
  simp only [seat, hs]
  cases l.room.session? key with
  | none => rfl
  | some s =>
    obtain ⟨presenceId, info, state⟩ := s
    cases state with
    | awaitingConnect w =>
      simp only [Option.map_some, Option.bind_some, Session.mapConnected, Session.stage?]
      by_cases hw : w.socket = socket
      · simp only [if_pos hw]
        rfl
      · simp only [if_neg hw]
        rfl
    | awaitingRemoval since => rfl
    | connected c =>
      simp only [Option.map_some, Option.bind_some, Session.mapConnected, Session.stage?]
      by_cases hc : c.socket = socket
      · simp only [if_pos hc]
        rfl
      · simp only [if_neg hc]
        rfl

omit [Host σ] in
theorem seat_setOutbox_vacant (hstage : (l.seat key socket).stage = none) (outbox : Outbox) :
    (l.setOutbox key outbox).seat key socket = l.seat key socket := by
  simp only [seat_setOutbox, hstage]
  rw [← hstage]

end LiveRoom

end RoomSync
