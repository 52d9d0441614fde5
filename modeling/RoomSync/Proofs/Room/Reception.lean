import RoomSync.Proofs.Room.Run

namespace RoomSync

open Table Room

namespace Room

theorem modifySession_of_none {r : Room} {key : String} (h : r.session? key = none)
    (f : Session → Session) : r.modifySession key f = r := by
  have hsame : r.sessions.modify key f = r.sessions := by
    rw [Table.modify, show r.sessions.get? key = none from h]
  rw [modifySession, hsame]

theorem modifySession_of_same {r : Room} {key : String} {s : Session}
    (h : r.session? key = some s) {f : Session → Session} (hf : f s = s) :
    r.modifySession key f = r := by
  have hsame : r.sessions.modify key f = r.sessions := by
    apply Table.ext
    intro k
    rw [get?_modify]
    split
    · rename_i hk
      rw [hk, show r.sessions.get? key = some s from h, Option.map_some, hf]
    · rfl
  rw [modifySession, hsame]

theorem modifySession_modifySession (r : Room) (key : String) (f : Session → Session)
    (hf : ∀ s, f (f s) = f s) :
    (r.modifySession key f).modifySession key f = r.modifySession key f := by
  cases hs : r.session? key with
  | none => rw [modifySession_of_none hs, modifySession_of_none hs]
  | some s =>
    refine modifySession_of_same (s := f s) ?_ (hf s)
    rw [session?_modifySession, if_pos rfl, hs]
    rfl

theorem without_modifySession (r : Room) (key : String) (f : Session → Session) :
    (r.modifySession key f).without key = r.without key := by
  have hsame : (r.sessions.modify key f).erase key = r.sessions.erase key := by
    apply Table.ext
    intro k
    rw [get?_erase, get?_erase, get?_modify]
    split <;> rfl
  rw [without, without, modifySession, hsame]

end Room

namespace Session

@[simp] theorem socket?_touch (s : Session) (now : Nat) : (s.touch now).socket? = s.socket? := by
  obtain ⟨presenceId, info, state⟩ := s
  cases state <;> rfl

@[simp] theorem touch_touch (s : Session) (now : Nat) : (s.touch now).touch now = s.touch now := by
  obtain ⟨presenceId, info, state⟩ := s
  cases state <;> rfl

theorem touch_of_waiting {s : Session} {waiting : Waiting}
    (h : s.state = .awaitingConnect waiting) (now : Nat) : s.touch now = s := by
  rw [touch, mapConnected, h]

theorem socket?_of_phase {s : Session} (h : s.phase ≠ .awaitingRemoval) :
    ∃ socket, s.socket? = some socket := by
  obtain ⟨presenceId, info, state⟩ := s
  cases state with
  | awaitingConnect w => exact ⟨w.socket, rfl⟩
  | connected c => exact ⟨c.socket, rfl⟩
  | awaitingRemoval since => exact absurd rfl h

end Session

namespace LiveRoom

variable {σ : Type} [Host σ]

inductive Reception (l : LiveRoom σ) (key : String) (frame : Wire.Bytes) (now : Nat) :
    LiveRoom σ × Except RoomError Unit → Prop
  | unknown : l.room.session? key = none →
      Reception l key frame now (l, .error (.protocol (.unknownSession key)))
  | ignored {s : Session} : l.room.session? key = some s → s.phase = .awaitingRemoval →
      Reception l key frame now (l, .ok ())
  | ended {s : Session} {socket : SocketId} {msg : ServerMessage} (cause : RemovalCause)
      (error : RoomError) : l.room.session? key = some s → s.socket? = some socket →
      msg.isFarewell = true →
      Reception l key frame now ((l.tell socket msg).remove key cause now, .error error)
  | greets {request : ConnectRequest} {s : Session} {waiting : Waiting} :
      ClientMessage.decode frame = .ok (.connect request) → l.Admitted key request s waiting →
      Reception l key frame now ((l.accept key s waiting request now).1, .ok ())
  | serves {push : Push} {s : Session} : ClientMessage.decode frame = .ok (.push push) →
      l.room.session? key = some s → s.isConnected = true → push.sessionKey = key →
      Reception l key frame now ((l.receivePush key push now).1, .ok ())
  | pongs : ClientMessage.decode frame = .ok .ping →
      Reception l key frame now
        (pong { l with room := l.room.modifySession key (·.touch now) } key now, .ok ())

variable {l : LiveRoom σ} {key : String} {now : Nat}

theorem remove_touched (l : LiveRoom σ) (key : String) (cause : RemovalCause) (now : Nat) :
    remove { l with room := l.room.modifySession key (·.touch now) } key cause now =
      l.remove key cause now := by
  cases hs : l.room.session? key with
  | none => rw [modifySession_of_none hs]
  | some s =>
    have ht : (l.room.modifySession key (·.touch now)).session? key = some (s.touch now) := by
      rw [session?_modifySession, if_pos rfl, hs]
      rfl
    have hforget : forget { l with room := l.room.modifySession key (·.touch now) } key =
        l.forget key := congrArg (LiveRoom.mk · l.host) (l.room.without_modifySession key _)
    rw [remove_eq ht, remove_eq hs, left, left, hforget, s.socket?_touch, s.presenceId_touch]

theorem terminate_of_socket {s : Session} {socket : SocketId} (hs : l.room.session? key = some s)
    (hsocket : s.socket? = some socket) (error : ProtocolError) (now : Nat) :
    l.terminate key error now =
      (l.tell socket (.error error.message)).remove key .protocolError now := by
  rw [terminate, hs, Option.bind_some, hsocket]

variable {frame : Wire.Bytes} {s : Session} {socket : SocketId}

theorem Reception.breach (hs : l.room.session? key = some s) (hsocket : s.socket? = some socket)
    (error : ProtocolError) :
    Reception l key frame now
      (terminate { l with room := l.room.modifySession key (·.touch now) } key error now,
        .error (.protocol error)) := by
  have ht : (l.room.modifySession key (·.touch now)).session? key = some (s.touch now) := by
    rw [session?_modifySession, if_pos rfl, hs]
    rfl
  rw [terminate_of_socket ht ((s.socket?_touch now).trans hsocket)]
  have hremove := remove_touched (l.tell socket (.error error.message)) key .protocolError now
  exact hremove ▸ .ended _ _ hs hsocket rfl

theorem hear_of_error {msg : ClientMessage} {l' : LiveRoom σ} {error : ProtocolError}
    (h : dispatch { l with room := l.room.modifySession key (·.touch now) } key msg now =
      (l', .error (.protocol error))) :
    l.hear key msg now = (l'.terminate key error now, .error (.protocol error)) := by
  simp only [hear, h]

theorem hear_of_no_error {msg : ClientMessage} {l' : LiveRoom σ} {result : Except RoomError Unit}
    (h : dispatch { l with room := l.room.modifySession key (·.touch now) } key msg now =
      (l', result)) (hresult : ∀ error, result ≠ .error (.protocol error)) :
    l.hear key msg now = (l', result) := by
  rw [hear, h]
  split
  · rename_i he
    exact absurd (Prod.mk.inj he).2 (hresult _)
  · rfl

omit [Host σ] in
theorem touched_of_waiting {waiting : Waiting} (hs : l.room.session? key = some s)
    (hw : s.state = .awaitingConnect waiting) (now : Nat) :
    ({ l with room := l.room.modifySession key (·.touch now) } : LiveRoom σ) = l :=
  congrArg (LiveRoom.mk · l.host) (modifySession_of_same hs (s.touch_of_waiting hw now))

theorem hear_of_admitted {request : ConnectRequest} {waiting : Waiting}
    (h : l.Admitted key request s waiting) (now : Nat) :
    l.hear key (.connect request) now = ((l.accept key s waiting request now).1, .ok ()) := by
  refine hear_of_no_error ?_ nofun
  rw [touched_of_waiting h.session h.state, dispatch, h.connect]
  rfl

theorem hear_of_connected {push : Push} (hs : l.room.session? key = some s)
    (hc : s.isConnected = true) (hkey : push.sessionKey = key) (now : Nat) :
    l.hear key (.push push) now = ((l.receivePush key push now).1, .ok ()) := by
  let l₁ : LiveRoom σ := { l with room := l.room.modifySession key (·.touch now) }
  have hs₁ : l₁.room.session? key = some (s.touch now) := by
    rw [session?_modifySession, if_pos rfl, hs]
    rfl
  -- A push is noted as a sign of life twice, which is the same as once.
  have htwice : l₁.receivePush key push now = l.receivePush key push now := by
    rw [l.receivePush_of_connected now hs hc hkey,
      l₁.receivePush_of_connected now hs₁ ((s.isConnected_touch now).trans hc) hkey,
      s.presenceId_touch, l.room.modifySession_modifySession key _ fun s => s.touch_touch now]
  have hdispatch : dispatch l₁ key (.push push) now =
      ((l.receivePush key push now).1, .ok ()) := by
    rw [dispatch, htwice, l.receivePush_of_connected now hs hc hkey]
    rfl
  exact hear_of_no_error hdispatch (by simp)

theorem Reception.connect (hs : l.room.session? key = some s) (hsocket : s.socket? = some socket)
    {request : ConnectRequest} (hd : ClientMessage.decode frame = .ok (.connect request)) :
    Reception l key frame now (l.hear key (.connect request) now) := by
  let l₁ : LiveRoom σ := { l with room := l.room.modifySession key (·.touch now) }
  have hsame : ∀ {s' : Session} {waiting : Waiting}, l₁.room.session? key = some s' →
      s'.state = .awaitingConnect waiting → l₁ = l := by
    intro s' waiting hs' hw
    rw [session?_modifySession, if_pos rfl, hs] at hs'
    have hstate : s.state = .awaitingConnect waiting := by
      obtain rfl := Option.some.inj hs'
      obtain ⟨presenceId, info, state⟩ := s
      cases state with
      | awaitingConnect w => exact hw
      | connected c => cases hw
      | awaitingRemoval since => cases hw
    exact touched_of_waiting hs hstate now
  obtain ⟨error, -, he⟩ | ⟨s', waiting, msg, cause, error, hs', hw, hm, -, he⟩ | ⟨s', waiting, ha⟩ :=
    l₁.connect_cases now key request
  · have hdispatch : l₁.dispatch key (.connect request) now = (l₁, .error (.protocol error)) := by
      rw [dispatch, he]
      rfl
    rw [hear_of_error hdispatch]
    exact .breach hs hsocket error
  · have hl := hsame hs' hw
    have hsocket' : s'.socket? = some waiting.socket := by rw [Session.socket?, hw]
    have hdispatch : l₁.dispatch key (.connect request) now =
        ((l.tell waiting.socket msg).remove key cause now, .error error) := by
      rw [dispatch, he, hl]
      rfl
    -- The session has left, so there is nothing left to terminate.
    have hhear : l.hear key (.connect request) now =
        ((l.tell waiting.socket msg).remove key cause now, .error error) := by
      cases error with
      | rejected reason => exact hear_of_no_error hdispatch (by simp)
      | protocol error =>
        rw [hear_of_error hdispatch, terminate_of_none _ now (session?_remove ..)]
    rw [hhear]
    exact .ended cause error (hl ▸ hs') hsocket' hm
  · have hadmitted : l.Admitted key request s' waiting := hsame ha.session ha.state ▸ ha
    rw [hear_of_admitted hadmitted]
    exact .greets hd hadmitted

theorem Reception.push (hs : l.room.session? key = some s) (hsocket : s.socket? = some socket)
    {push : Push} (hd : ClientMessage.decode frame = .ok (.push push)) :
    Reception l key frame now (l.hear key (.push push) now) := by
  let l₁ : LiveRoom σ := { l with room := l.room.modifySession key (·.touch now) }
  obtain ⟨error, -, he⟩ | ⟨s', hs', hc, hkey⟩ := l₁.receivePush_cases now key push
  · have hdispatch : l₁.dispatch key (.push push) now = (l₁, .error (.protocol error)) := by
      rw [dispatch, he]
      rfl
    rw [hear_of_error hdispatch]
    exact .breach hs hsocket error
  · rw [session?_modifySession, if_pos rfl, hs] at hs'
    obtain rfl := Option.some.inj hs'
    rw [Session.isConnected_touch] at hc
    rw [hear_of_connected hs hc hkey]
    exact .serves hd hs hc hkey

theorem reception (l : LiveRoom σ) (key : String) (frame : Wire.Bytes) (now : Nat) :
    Reception l key frame now (l.receive key frame now) := by
  rw [receive]
  cases hs : l.room.session? key with
  | none => exact .unknown hs
  | some s =>
    by_cases hphase : s.phase = .awaitingRemoval
    · simp only [hphase, if_true]
      exact .ignored hs hphase
    · obtain ⟨socket, hsocket⟩ := s.socket?_of_phase hphase
      simp only [hphase, if_false]
      cases hd : ClientMessage.decode frame with
      | error cause =>
        dsimp only
        rw [terminate_of_socket hs hsocket]
        exact .ended _ _ hs hsocket rfl
      | ok msg =>
        cases msg with
        | connect request => exact .connect hs hsocket hd
        | push push => exact .push hs hsocket hd
        | ping => exact .pongs hd

structure Accepts (l : LiveRoom σ) (call : Call) (key : String) (request : ConnectRequest)
    (accepted : Accepted) : Prop where
  deed : call.operation.deed = .greets key request
  result : (l.connect key request call.now).2 = .ok accepted

structure Serves (l : LiveRoom σ) (call : Call) (key : String) (push : Push) : Prop where
  deed : call.operation.deed = .serves key push
  result : ∃ result, (l.receivePush key push call.now).2 = .ok result

def Repels (l : LiveRoom σ) (call : Call) (key : String) : Prop :=
  l.perform call = l ∨
    ∃ socket msg cause, l.perform call = (l.tell socket msg).remove key cause call.now

theorem Operation.deed_of_receive {frame : Wire.Bytes} {deed : Deed}
    (h : (Operation.receive key frame).deed = deed) (hdeed : deed ≠ .inner) :
    ∃ msg, ClientMessage.decode frame = .ok msg ∧ Deed.ofMessage key msg = deed := by
  rw [Operation.deed] at h
  cases hd : ClientMessage.decode frame with
  | error cause =>
    rw [hd] at h
    exact absurd h.symm hdeed
  | ok msg =>
    rw [hd] at h
    exact ⟨msg, rfl, h⟩

theorem Operation.deed_eq_opens {operation : Operation} {socket : SocketId}
    (h : operation.deed = .opens key socket) : ∃ info, operation = .openSocket key socket info := by
  cases operation with
  | openSocket k t info =>
    obtain ⟨rfl, rfl⟩ := Deed.opens.inj h
    exact ⟨info, rfl⟩
  | receive k frame =>
    obtain ⟨msg, -, he⟩ := deed_of_receive h nofun
    cases msg <;> cases he
  | connect _ _ | push _ _ | socketClosed _ _ | tick | kick _ | takeEvents => cases h

theorem Operation.deed_eq_greets {operation : Operation} {request : ConnectRequest}
    (h : operation.deed = .greets key request) : operation = .connect key request ∨
      ∃ frame, operation = .receive key frame ∧
        ClientMessage.decode frame = .ok (.connect request) := by
  cases operation with
  | connect k r =>
    obtain ⟨rfl, rfl⟩ := Deed.greets.inj h
    exact .inl rfl
  | receive k frame =>
    obtain ⟨msg, hd, he⟩ := deed_of_receive h nofun
    cases msg with
    | connect r =>
      obtain ⟨rfl, rfl⟩ := Deed.greets.inj he
      exact .inr ⟨frame, rfl, hd⟩
    | push _ | ping => cases he
  | openSocket _ _ _ | push _ _ | socketClosed _ _ | tick | kick _ | takeEvents => cases h

theorem Operation.deed_eq_serves {operation : Operation} {push : Push}
    (h : operation.deed = .serves key push) : operation = .push key push ∨
      ∃ frame, operation = .receive key frame ∧
        ClientMessage.decode frame = .ok (.push push) := by
  cases operation with
  | push k p =>
    obtain ⟨rfl, rfl⟩ := Deed.serves.inj h
    exact .inl rfl
  | receive k frame =>
    obtain ⟨msg, hd, he⟩ := deed_of_receive h nofun
    cases msg with
    | push p =>
      obtain ⟨rfl, rfl⟩ := Deed.serves.inj he
      exact .inr ⟨frame, rfl, hd⟩
    | connect _ | ping => cases he
  | openSocket _ _ _ | connect _ _ | socketClosed _ _ | tick | kick _ | takeEvents => cases h

variable {call : Call} {request : ConnectRequest} {accepted : Accepted} {push : Push}

theorem Accepts.perform (h : l.Accepts call key request accepted) : ∃ s waiting,
    l.Admitted key request s waiting ∧
      l.perform call = (l.accept key s waiting request call.now).1 ∧
      accepted = (l.accept key s waiting request call.now).2 := by
  obtain ⟨s, waiting, ha⟩ := admitted_of_connect h.result
  have hresult := h.result
  rw [ha.connect] at hresult
  refine ⟨s, waiting, ha, ?_, (Except.ok.inj hresult).symm⟩
  obtain ⟨now, operation⟩ := call
  obtain rfl | ⟨frame, rfl, hd⟩ := Operation.deed_eq_greets h.deed
  · exact congrArg Prod.fst (ha.connect now)
  · have hphase : s.phase ≠ .awaitingRemoval := by simp [Session.phase, ha.state]
    change (l.receive key frame now).1 = _
    rw [l.receive_eq_heed now key hd, l.heed_of_session now ha.session hphase, hear_of_admitted ha]

theorem accepts_or_repels (l : LiveRoom σ) (call : Call)
    (h : call.operation.deed = .greets key request) :
    (∃ accepted, l.Accepts call key request accepted) ∨ l.Repels call key := by
  obtain ⟨now, operation⟩ := call
  have haccepts : ∀ {s waiting}, l.Admitted key request s waiting →
      ∃ accepted, l.Accepts ⟨now, operation⟩ key request accepted :=
    fun ha => ⟨_, h, congrArg Prod.snd (ha.connect now)⟩
  obtain rfl | ⟨frame, rfl, hd⟩ := Operation.deed_eq_greets h
  · obtain ⟨_, -, he⟩ | ⟨_, _, _, _, _, -, -, -, -, he⟩ | ⟨s, waiting, ha⟩ :=
      l.connect_cases now key request
    · exact .inr (.inl (congrArg Prod.fst he))
    · exact .inr (.inr ⟨_, _, _, congrArg Prod.fst he⟩)
    · exact .inl (haccepts ha)
  · have hr := l.reception key frame now
    generalize hanswer : l.receive key frame now = answer at hr
    have hl : l.perform ⟨now, .receive key frame⟩ = answer.1 := congrArg Prod.fst hanswer
    cases hr with
    | unknown | ignored => exact .inr (.inl hl)
    | ended => exact .inr (.inr ⟨_, _, _, hl⟩)
    | greets hd' ha =>
      cases hd.symm.trans hd'
      exact .inl (haccepts ha)
    | serves hd' | pongs hd' => cases hd.symm.trans hd'

theorem serves_or_repels (l : LiveRoom σ) (call : Call)
    (h : call.operation.deed = .serves key push) :
    l.Serves call key push ∨ l.Repels call key := by
  obtain ⟨now, operation⟩ := call
  have hserves : ∀ {s}, l.room.session? key = some s → s.isConnected = true →
      push.sessionKey = key → l.Serves ⟨now, operation⟩ key push :=
    fun hs hc hkey => ⟨h, _, congrArg Prod.snd (l.receivePush_of_connected now hs hc hkey)⟩
  obtain rfl | ⟨frame, rfl, hd⟩ := Operation.deed_eq_serves h
  · obtain ⟨_, -, he⟩ | ⟨s, hs, hc, hkey⟩ := l.receivePush_cases now key push
    · exact .inr (.inl (congrArg Prod.fst he))
    · exact .inl (hserves hs hc hkey)
  · have hr := l.reception key frame now
    generalize hanswer : l.receive key frame now = answer at hr
    have hl : l.perform ⟨now, .receive key frame⟩ = answer.1 := congrArg Prod.fst hanswer
    cases hr with
    | unknown | ignored => exact .inr (.inl hl)
    | ended => exact .inr (.inr ⟨_, _, _, hl⟩)
    | serves hd' hs hc hkey =>
      cases hd.symm.trans hd'
      exact .inl (hserves hs hc hkey)
    | greets hd' | pongs hd' => cases hd.symm.trans hd'

end LiveRoom

end RoomSync
