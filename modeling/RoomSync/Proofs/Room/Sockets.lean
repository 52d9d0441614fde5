import RoomSync.Proofs.Room.Run

namespace RoomSync

open Table Room

variable {σ : Type} [Host σ]

/-- What holds of a host whatever is sent and whichever sockets are closed. -/
structure Host.Keeps (P : σ → Prop) : Prop where
  send : ∀ host socket msg, P host → P (Host.send host socket msg).1
  close : ∀ host socket, P host → P (Host.close host socket)

namespace LiveRoom

section
variable {P : σ → Prop} (hk : Host.Keeps P) {l : LiveRoom σ} (h : P l.host)
include hk h

theorem host_cancel (key : String) (cause : CancelCause) (now : Nat) :
    P (l.cancel key cause now).host := by
  cases hs : l.room.session? key with
  | none => rwa [cancel_of_none _ _ _ hs]
  | some s =>
    simp only [cancel, hs, Session.cancel]
    cases s.state with
    | connected c => exact hk.close _ _ h
    | awaitingConnect w => exact h
    | awaitingRemoval since => exact h

omit h in
theorem delivery_host (now : Nat) : Delivery now fun l l' : LiveRoom σ => P l.host → P l'.host where
  refl _ := id
  trans h h' := h' ∘ h
  tell _ _ _ := hk.send _ _ _
  setOutbox _ _ _ := id
  cancel _ key cause h := host_cancel hk h key cause now

theorem host_remove (key : String) (cause : RemovalCause) (now : Nat) :
    P (l.remove key cause now).host := by
  cases hs : l.room.session? key with
  | none => rwa [remove, hs]
  | some s =>
    have hleft : P (l.left key s).host := by
      rw [left]
      cases s.socket? with
      | none => exact h
      | some socket => exact hk.close _ _ h
    rw [remove_eq hs]
    exact (delivery_host hk now).dropPresence? (l.left key s) s.presenceId hleft

theorem host_succeed (key : String) (socket : SocketId) (info : Content) (now : Nat) :
    P (l.succeed key socket info now).host := by
  unfold succeed
  split
  · exact h
  · rename_i old _
    cases old.socket? with
    | none => exact h
    | some previous => exact hk.close _ _ h

theorem host_accept (key : String) (s : Session) (waiting : Waiting) (request : ConnectRequest)
    (now : Nat) : P (l.accept key s waiting request now).1.host := by
  have hready : P (l.readied key s request now).host :=
    (delivery_host hk now).dropPresence? (l.forget key) _ h
  let welcomed : LiveRoom σ := ⟨((l.readied key s request now).room.seated key
    ((l.readied key s request now).guest s waiting request now)).note
      (.connected key waiting.resume.isSome), (l.readied key s request now).host⟩
  exact (delivery_host hk now).sendFrame welcomed key waiting.socket _ hready

theorem host_serve (key : String) (own : Option RecordId) (push : Push) (now : Nat) :
    P (l.serve key own push now).host := by
  let pushed : LiveRoom σ := { l with room := (l.room.applyPush own push).1 }
  have hanswered : P (pushed.sendData key (.pushResult (l.room.answer own push)) now).host :=
    (delivery_host hk now).sendData pushed key _ h
  unfold serve
  dsimp only
  split
  · exact hanswered
  · exact (delivery_host hk now).broadcast _ _ (some key) hanswered

theorem Turn.host {now : Nat} {deed : Deed} {l' : LiveRoom σ} (ht : Turn now deed l l') :
    P l'.host := by
  cases ht with
  | note => exact h
  | touch => exact h
  | cancel _ key cause => exact host_cancel hk h key cause now
  | tell => exact hk.send _ _ _ h
  | pong _ key => exact (delivery_host hk now).pong l key h
  | flush _ key => exact (delivery_host hk now).flushSession l key h
  | remove _ key cause => exact host_remove hk h key cause now
  | opens _ key socket info => exact host_succeed hk h key socket info now
  | @greets _ key s waiting request => exact host_accept hk h key s waiting request now
  | @serves _ key s push => exact host_serve hk h key s.presenceId push now

theorem host_perform (call : Call) : P (l.perform call).host :=
  run_keeps (P := fun l => P l.host) (fun _ _ _ _ ht h => ht.host hk h) h [call]

end

def Call.OnOpenSockets (call : Call) : Prop :=
  ∀ key socket info, call.operation ≠ .openSocket key socket info

variable {l l' : LiveRoom σ} {call : Call}

theorem Call.OnOpenSockets.deed (h : call.OnOpenSockets) (key : String) (socket : SocketId) :
    call.operation.deed ≠ .opens key socket := by
  obtain ⟨now, operation⟩ := call
  cases operation with
  | openSocket k t info => exact absurd rfl (h k t info)
  | receive k frame =>
    cases hd : ClientMessage.decode frame with
    | error cause => simp [Operation.deed, hd, Except.toOption]
    | ok msg => cases msg <;> simp [Operation.deed, hd, Except.toOption, Deed.ofMessage]
  | _ => simp [Operation.deed]

theorem perform_keeps {P : LiveRoom σ → Prop} (hcall : call.OnOpenSockets)
    (hturn : ∀ now deed (l l' : LiveRoom σ), (∀ key socket, deed ≠ .opens key socket) →
      Turn now deed l l' → P l → P l') (h : P l) : P (l.perform call) := by
  have hturns : ∀ {ms} {l l' : LiveRoom σ}, Turns call.now ms l l' → P l → P l' := by
    intro ms l l' hms
    induction hms with
    | refl l => exact id
    | step ht _ ih => exact fun h => ih (hturn _ _ _ _ (fun _ _ he => by cases he) ht h)
  obtain ⟨ms, hepisode, -⟩ := l.episode_perform call
  cases hepisode with
  | undone hms => exact hturns hms h
  | done hms hdeed => exact hturn _ _ _ _ hcall.deed hdeed (hturns hms h)

theorem inherits_perform (hcall : call.OnOpenSockets) : l.room.Inherits (l.perform call).room :=
  perform_keeps (P := fun l' => l.room.Inherits l'.room) hcall
    (fun _ _ _ _ hno ht h => h.trans (ht.sockets hno)) (inherits_of_sessions rfl)

theorem socket_openSocket (l : LiveRoom σ) {key k : String} {socket t : SocketId} {info : Content}
    {now : Nat} {s : Session}
    (hs : (l.openSocket key socket info now).room.session? k = some s) (ht : s.socket? = some t) :
    (k = key ∧ t = socket) ∨
      (k ≠ key ∧ ∃ s', l.room.session? k = some s' ∧ s'.socket? = some t) := by
  have hexpire : l.room.Inherits (l.expire key now).room := by
    unfold expire
    split
    · split
      · have ht : Turn now .inner l (l.remove key .removalGrace now) := .remove l key .removalGrace
        exact ht.sockets fun _ _ he => by cases he
      · exact inherits_of_sessions rfl
    · exact inherits_of_sessions rfl
  rw [openSocket_eq] at hs
  obtain hnew | ⟨hk, hold⟩ := sockets_succeed key socket info now hs ht
  · exact .inl hnew
  · exact .inr ⟨hk, hexpire k s t hold ht⟩

/-- Nobody is there, and nothing happens that would change a record. -/
structure Deserted (l l' : LiveRoom σ) : Prop where
  sessions : l'.room.sessions = Table.empty
  store : l'.room.store = l.room.store

omit [Host σ] in
theorem session?_of_empty (h : l.room.sessions = Table.empty) (key : String) :
    l.room.session? key = none := by
  rw [session?, h, get?_empty]

theorem Turn.deserted {now : Nat} {deed : Deed} (ht : Turn now deed l l')
    (hno : ∀ key socket, deed ≠ .opens key socket) (h : l.room.sessions = Table.empty) :
    Deserted l l' := by
  have hnone := session?_of_empty h
  have hconnected : ∀ key, l.room.connected? key = none := fun key => by
    rw [connected?, hnone, Option.bind_none]
  cases ht with
  | note => exact ⟨h, rfl⟩
  | touch _ key =>
    have hget : l.room.sessions.get? key = none := hnone key
    refine ⟨?_, rfl⟩
    simp only [modifySession, Table.modify, hget]
    exact h
  | cancel _ key cause => exact ⟨by rwa [cancel_of_none _ _ _ (hnone key)], by
      rw [cancel_of_none _ _ _ (hnone key)]⟩
  | tell => exact ⟨h, rfl⟩
  | pong _ key => simpa only [LiveRoom.pong, hnone, Option.bind_none] using ⟨h, rfl⟩
  | flush _ key => simpa only [flushSession, hconnected] using ⟨h, rfl⟩
  | remove _ key cause => simpa only [LiveRoom.remove, hnone] using ⟨h, rfl⟩
  | opens _ key socket info => exact absurd rfl (hno key socket)
  | @greets _ key s waiting request hs _ _ => cases (hnone key).symm.trans hs
  | @serves _ key s push hs _ => cases (hnone key).symm.trans hs

theorem deserted_perform (hcall : call.OnOpenSockets) (h : l.room.sessions = Table.empty) :
    Deserted l (l.perform call) :=
  perform_keeps (P := fun l' => Deserted l l') hcall
    (fun _ _ _ _ hno ht hl => by
      have hd := ht.deserted hno hl.sessions
      exact ⟨hd.sessions, hd.store.trans hl.store⟩)
    ⟨h, rfl⟩

end LiveRoom

end RoomSync
