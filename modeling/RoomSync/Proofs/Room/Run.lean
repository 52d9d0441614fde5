import RoomSync.Proofs.Room.Turn

namespace RoomSync

open Table Room

instance : Host Unit where
  send host _ _ := (host, none)
  close host _ := host
  visit _ keys := keys
  visit_perm _ keys := List.Perm.refl keys

/-- The errors of messages that came under a wrong key or out of turn. -/
def RoomError.isMisplaced : RoomError → Bool
  | .protocol (.sessionKeyMismatch _ _) | .protocol (.unknownSession _)
  | .protocol (.unexpectedMessage _ _) => true
  | .protocol (.decode _) | .protocol (.invalidPresenceId _ _) | .protocol .connectionClosed
  | .rejected _ => false

namespace LiveRoom

variable {σ : Type} [Host σ]

inductive Operation where
  | openSocket (key : String) (socket : SocketId) (info : Content)
  | receive (key : String) (frame : Wire.Bytes)
  | connect (key : String) (request : ConnectRequest)
  | push (key : String) (push : Push)
  | socketClosed (key : String) (socket : SocketId)
  | tick
  | kick (key : String)
  | takeEvents
deriving Inhabited

structure Call where
  now : Nat
  operation : Operation
deriving Inhabited

def perform (l : LiveRoom σ) (call : Call) : LiveRoom σ :=
  match call.operation with
  | .openSocket key socket info => l.openSocket key socket info call.now
  | .receive key frame => (l.receive key frame call.now).1
  | .connect key request => (l.connect key request call.now).1
  | .push key push => (l.receivePush key push call.now).1
  | .socketClosed key socket => l.socketClosed key socket call.now
  | .tick => (l.tick call.now).1
  | .kick key => (l.kick key call.now).1
  | .takeEvents => l.takeEvents.1

def run (l : LiveRoom σ) (calls : List Call) : LiveRoom σ := calls.foldl perform l

theorem run_append (l : LiveRoom σ) (calls calls' : List Call) :
    l.run (calls ++ calls') = (l.run calls).run calls' := List.foldl_append ..

def expirations (now : Nat) (l : LiveRoom σ) : List (String × Expiry) → List (LiveRoom σ)
  | [] => []
  | expired :: rest =>
    let l := expireSession now l expired
    l :: expirations now l rest

/-- The moments between the beginning and the end of a call. Only a tick can move the clock more than
once. -/
def passing (l : LiveRoom σ) (call : Call) : List Moment :=
  match call.operation with
  | .tick => (expirations call.now l (l.expired call.now)).map (·.room.moment)
  | _ => []

/-- Every moment that a room goes through. -/
def history (l : LiveRoom σ) : List Call → List Moment
  | [] => [l.room.moment]
  | call :: rest => l.room.moment :: (l.passing call ++ (l.perform call).history rest)

def Deed.ofMessage (key : String) : ClientMessage → Deed
  | .connect request => .greets key request
  | .push push => .serves key push
  | .ping => .inner

def Operation.deed : Operation → Deed
  | .openSocket key socket _ => .opens key socket
  | .receive key frame => (ClientMessage.decode frame).toOption.elim .inner (.ofMessage key)
  | .connect key request => .greets key request
  | .push key p => .serves key p
  | .socketClosed _ _ | .tick | .kick _ | .takeEvents => .inner

/-- A relation that holds of whatever a room does apart from the messages of its sessions, because it
holds of what that is put together from. -/
structure Upkeep (now : Nat) (R : LiveRoom σ → LiveRoom σ → Prop) : Prop where
  refl : ∀ l, R l l
  trans : ∀ {l l' l''}, R l l' → R l' l'' → R l l''
  note : ∀ (l : LiveRoom σ) forbidden events, l.room.forbidden ⊆ forbidden →
    R l { l with room := { l.room with forbidden, events } }
  cancel : ∀ (l : LiveRoom σ) key cause, R l (l.cancel key cause now)
  remove : ∀ (l : LiveRoom σ) key cause, R l (l.remove key cause now)
  flush : ∀ (l : LiveRoom σ) key, R l (flushSession now l key)

namespace Upkeep

variable {now : Nat} {R : LiveRoom σ → LiveRoom σ → Prop} (h : Upkeep now R) (l : LiveRoom σ)
include h

theorem expire (key : String) : R l (l.expire key now) := by
  unfold LiveRoom.expire
  split
  · split
    · exact h.remove l key _
    · exact h.refl l
  · exact h.refl l

theorem socketClosed (key : String) (socket : SocketId) : R l (l.socketClosed key socket now) := by
  unfold LiveRoom.socketClosed
  split
  · exact h.refl l
  · split
    · exact h.refl l
    · split
      · exact h.cancel l key _
      · exact h.remove l key _

theorem expireSession (expired : String × Expiry) : R l (expireSession now l expired) := by
  obtain ⟨key, expiry⟩ := expired
  cases expiry with
  | startTimeout => exact h.remove l key _
  | idle => exact h.cancel l key _
  | removalGrace => exact h.remove l key _

theorem takeEvents : R l l.takeEvents.1 := h.note l _ _ (List.Subset.refl _)

theorem tick : R l (l.tick now).1 := by
  let l₁ := (l.expired now).foldl (LiveRoom.expireSession now) l
  let l₂ := (Host.visit l₁.host l₁.room.connectedKeys).foldl (flushSession now) l₁
  have hexpired : R l l₁ := l.foldl_related h.refl h.trans h.expireSession _
  have hflushed : R l₁ l₂ := l₁.foldl_related h.refl h.trans h.flush _
  exact h.trans (h.trans hexpired hflushed) (h.takeEvents l₂)

theorem kick (key : String) : R l (l.kick key now).1 := by
  let forbidden := if key ∈ l.room.forbidden then l.room.forbidden else key :: l.room.forbidden
  have hforbidden : l.room.forbidden ⊆ forbidden := by
    dsimp only [forbidden]
    split
    · exact List.Subset.refl _
    · exact List.subset_cons_self _ _
  exact h.trans (h.note l forbidden l.room.events hforbidden) (h.remove _ key .kicked)

end Upkeep

structure Admitted (l : LiveRoom σ) (key : String) (request : ConnectRequest) (s : Session)
    (waiting : Waiting) : Prop where
  named : request.sessionKey = key
  session : l.room.session? key = some s
  state : s.state = .awaitingConnect waiting
  admission : l.room.admission key request = .ok ()
  presenceId : l.room.presenceFault? key request.presenceId = none

variable (l : LiveRoom σ) (now : Nat)

theorem session?_remove (key : String) (cause : RemovalCause) :
    (l.remove key cause now).room.session? key = none := by
  cases hs : l.room.session? key with
  | none => rwa [remove, hs]
  | some s =>
    refine Option.eq_none_iff_forall_not_mem.2 fun s' hs' => ?_
    obtain ⟨t, ht, -⟩ := (l.steady_remove hs cause now).sessions key s' hs'
    rw [session?_dropped, session?_without, if_pos rfl] at ht
    cases ht

theorem terminate_of_none {key : String} (h : l.room.session? key = none) (error : ProtocolError) :
    l.terminate key error now = l := by
  rw [terminate, h]
  rfl

theorem refuse_eq {key : String} {s : Session} {socket : SocketId}
    (hs : l.room.session? key = some s) (hsocket : s.socket? = some socket) (msg : ServerMessage)
    (cause : RemovalCause) :
    l.refuse key s socket msg cause now = (l.tell socket msg).remove key cause now := by
  have hs : (l.tell socket msg).room.session? key = some s := hs
  rw [remove, hs]
  dsimp only
  rw [hsocket]
  rfl

omit [Host σ] in
theorem Admitted.whatever {l : LiveRoom σ} {key : String} {request : ConnectRequest} {s : Session}
    {waiting : Waiting} (h : l.Admitted key request s waiting) (last : Option Nat) :
    l.Admitted key { request with lastKnownClock := last } s waiting :=
  ⟨h.named, h.session, h.state, h.admission, h.presenceId⟩

variable {l} in
theorem Admitted.connect {key : String} {request : ConnectRequest} {s : Session}
    {waiting : Waiting} (h : l.Admitted key request s waiting) :
    l.connect key request now = ((l.accept key s waiting request now).1,
      .ok (l.accept key s waiting request now).2) := by
  simp only [LiveRoom.connect, h.named, ne_eq, not_true_eq_false, if_false, h.session, h.state,
    h.admission, h.presenceId]

theorem connect_of_waiting {key : String} {s : Session} {waiting : Waiting}
    (hs : l.room.session? key = some s) (hw : s.state = .awaitingConnect waiting)
    {request : ConnectRequest} (hkey : request.sessionKey = key) :
    (∃ msg cause e, msg.isFarewell = true ∧ e.isMisplaced = false ∧ l.connect key request now =
        ((l.tell waiting.socket msg).remove key cause now, .error e)) ∨
      l.Admitted key request s waiting := by
  have hsocket : s.socket? = some waiting.socket := by rw [Session.socket?, hw]
  simp only [connect, if_neg (not_not_intro hkey), hs, hw]
  split
  · rw [refuse_eq l now hs hsocket]
    exact .inl ⟨_, _, _, rfl, rfl, rfl⟩
  · rename_i ha
    split
    · rw [refuse_eq l now hs hsocket]
      exact .inl ⟨_, _, _, rfl, rfl, rfl⟩
    · rename_i hf
      exact .inr ⟨hkey, hs, hw, ha, hf⟩

theorem connect_cases (key : String) (request : ConnectRequest) :
    (∃ e, RoomError.isMisplaced (.protocol e) = true ∧
        l.connect key request now = (l, .error (.protocol e))) ∨
      (∃ s waiting msg cause e, l.room.session? key = some s ∧
        s.state = .awaitingConnect waiting ∧ msg.isFarewell = true ∧ e.isMisplaced = false ∧
        l.connect key request now =
          ((l.tell waiting.socket msg).remove key cause now, .error e)) ∨
      ∃ s waiting, l.Admitted key request s waiting := by
  by_cases hkey : request.sessionKey = key
  · cases hs : l.room.session? key with
    | none => exact .inl ⟨_, rfl, by rw [connect, if_neg (not_not_intro hkey), hs]⟩
    | some s =>
      cases hw : s.state with
      | awaitingConnect waiting =>
        obtain ⟨msg, cause, e, hm, hplaced, he⟩ | ha := l.connect_of_waiting now hs hw hkey
        · exact .inr (.inl ⟨s, waiting, msg, cause, e, rfl, hw, hm, hplaced, he⟩)
        · exact .inr (.inr ⟨s, waiting, ha⟩)
      | connected c =>
        refine .inl ⟨.unexpectedMessage .connect s.phase, rfl, ?_⟩
        simp only [connect, if_neg (not_not_intro hkey), hs, hw]
      | awaitingRemoval since =>
        refine .inl ⟨.unexpectedMessage .connect s.phase, rfl, ?_⟩
        simp only [connect, if_neg (not_not_intro hkey), hs, hw]
  · exact .inl ⟨_, rfl, by rw [connect, if_pos hkey]⟩

variable {l now} in
theorem admitted_of_connect {key : String} {request : ConnectRequest} {accepted : Accepted}
    (h : (l.connect key request now).2 = .ok accepted) :
    ∃ s waiting, l.Admitted key request s waiting := by
  obtain ⟨_, -, he⟩ | ⟨_, _, _, _, _, -, -, -, -, he⟩ | ha := l.connect_cases now key request
  · cases he ▸ h
  · cases he ▸ h
  · exact ha

theorem receivePush_of_connected {key : String} {s : Session} (hs : l.room.session? key = some s)
    (hc : s.isConnected = true) {push : Push} (hkey : push.sessionKey = key) :
    l.receivePush key push now =
      (serve { l with room := l.room.modifySession key (·.touch now) } key s.presenceId push now,
        .ok ((l.room.modifySession key (·.touch now)).answer s.presenceId push)) := by
  rw [receivePush, if_neg (not_not_intro hkey), hs]
  exact if_pos hc

theorem receivePush_cases (key : String) (push : Push) :
    (∃ e, RoomError.isMisplaced (.protocol e) = true ∧
        l.receivePush key push now = (l, .error (.protocol e))) ∨
      ∃ s, l.room.session? key = some s ∧ s.isConnected = true ∧ push.sessionKey = key := by
  by_cases hkey : push.sessionKey = key
  · cases hs : l.room.session? key with
    | none => exact .inl ⟨_, rfl, by rw [receivePush, if_neg (not_not_intro hkey), hs]⟩
    | some s =>
      by_cases hc : s.isConnected = true
      · exact .inr ⟨s, rfl, hc, hkey⟩
      · refine .inl ⟨.unexpectedMessage .push s.phase, rfl, ?_⟩
        rw [receivePush, if_neg (not_not_intro hkey), hs]
        exact if_neg hc
  · exact .inl ⟨_, rfl, by rw [receivePush, if_pos hkey]⟩

variable {l now} in
theorem made_of_receivePush {key : String} {push : Push} {result : PushResult}
    (h : (l.receivePush key push now).2 = .ok result) :
    ∃ s, l.room.session? key = some s ∧ s.isConnected = true ∧ push.sessionKey = key ∧
      result = l.room.answer s.presenceId push ∧
      (l.receivePush key push now).1.room.moment = (l.room.applyPush s.presenceId push).1.moment := by
  obtain ⟨_, -, he⟩ | ⟨s, hs, hc, hkey⟩ := l.receivePush_cases now key push
  · rw [he] at h
    cases h
  · rw [l.receivePush_of_connected now hs hc hkey] at h ⊢
    have hresult := (Except.ok.inj h).symm
    rw [answer_touch] at hresult
    refine ⟨s, hs, hc, hkey, hresult, ?_⟩
    rw [(steady_serve _ key s.presenceId push now).moment, applyPush_touch]
    rfl

section
variable (key : String) (deed : Deed)

theorem brief_remove (cause : RemovalCause) :
    Brief now deed l (l.remove key cause now) :=
  .inner (.remove l key cause)

theorem brief_cancel (cause : CancelCause) : Brief now deed l (l.cancel key cause now) :=
  .inner (.cancel l key cause)

theorem brief_expire : Brief now deed l (l.expire key now) := by
  unfold expire
  split
  · split
    · exact l.brief_remove now key deed _
    · exact .refl l
  · exact .refl l

theorem brief_terminate (error : ProtocolError) :
    Brief now deed l (l.terminate key error now) := by
  rw [terminate]
  split
  · exact .refl l
  · rename_i socket hsocket
    obtain ⟨s, hs, hsocket⟩ := Option.bind_eq_some_iff.1 hsocket
    exact .cons (.tell l hs hsocket rfl) rfl (brief_remove _ now key deed _)

theorem brief_socketClosed (socket : SocketId) :
    Brief now deed l (l.socketClosed key socket now) := by
  unfold socketClosed
  split
  · exact .refl l
  · split
    · exact .refl l
    · split
      · exact l.brief_cancel now key deed _
      · exact l.brief_remove now key deed _

theorem turn_expireSession (expired : String × Expiry) :
    Turn now .inner l (expireSession now l expired) := by
  obtain ⟨key, expiry⟩ := expired
  cases expiry with
  | startTimeout => exact .remove l key _
  | idle => exact .cancel l key _
  | removalGrace => exact .remove l key _

theorem brief_kick : Brief now deed l (l.kick key now).1 := by
  let forbidden := if key ∈ l.room.forbidden then l.room.forbidden else key :: l.room.forbidden
  have hnote : Turn now .inner l _ := .note l forbidden l.room.events
  exact .cons hnote rfl (brief_remove _ now key deed .kicked)

theorem brief_takeEvents : Brief now deed l l.takeEvents.1 :=
  .inner (.note l l.room.forbidden [])

end

theorem brief_openSocket (key : String) (socket : SocketId) (info : Content) :
    Brief now (.opens key socket) l (l.openSocket key socket info now) :=
  (l.brief_expire now key _).concat (.opens _ key socket info)
    (rests_succeed ..).moment

theorem brief_connect (key : String) (request : ConnectRequest) :
    Brief now (.greets key request) l (l.connect key request now).1 := by
  obtain ⟨_, -, he⟩ | ⟨s, waiting, msg, cause, _, hs, hw, hm, -, he⟩ | ⟨s, waiting, ha⟩ :=
    l.connect_cases now key request
  · rw [he]
    exact .refl l
  · have hsocket : s.socket? = some waiting.socket := by rw [Session.socket?, hw]
    rw [he]
    have hm := ServerMessage.isNotice_of_isFarewell hm
    exact .cons (.tell l hs hsocket hm) rfl (brief_remove _ now key _ cause)
  · rw [ha.connect]
    exact .one (.greets l ha.session ha.state ha.presenceId)

theorem brief_receivePush (key : String) (push : Push) :
    Brief now (.serves key push) l (l.receivePush key push now).1 := by
  obtain ⟨_, -, he⟩ | ⟨s, hs, hc, hkey⟩ := l.receivePush_cases now key push
  · rw [he]
    exact .refl l
  · rw [l.receivePush_of_connected now hs hc hkey]
    have ht : (l.room.modifySession key (·.touch now)).session? key = some (s.touch now) := by
      rw [session?_modifySession, if_pos rfl, hs]
      rfl
    refine .cons (.touch l key) rfl (.one ?_)
    rw [← s.presenceId_touch now]
    exact .serves _ ht (by rwa [Session.isConnected_touch])

def concluded (key : String) (answer : LiveRoom σ × Except RoomError Unit) : LiveRoom σ :=
  match answer with
  | (l, .error (.protocol error)) => l.terminate key error now
  | (l, _) => l

theorem hear_eq (key : String) (msg : ClientMessage) :
    (l.hear key msg now).1 = concluded now key
      (dispatch { l with room := l.room.modifySession key (·.touch now) } key msg now) := by
  unfold hear
  dsimp only
  split
  · rename_i h
    rw [h]
    rfl
  · rename_i h
    unfold concluded
    split
    · rename_i l' error he
      exact absurd he (h l' error)
    · rename_i he
      exact congrArg Prod.fst he

theorem brief_concluded (key : String) (deed : Deed) (result : Except RoomError Unit) :
    Brief now deed l (concluded now key (l, result)) := by
  unfold concluded
  split
  · rename_i h
    obtain ⟨rfl, -⟩ := Prod.mk.inj h
    exact brief_terminate _ now key deed _
  · rename_i h
    obtain ⟨rfl, -⟩ := Prod.mk.inj h
    exact .refl _

theorem concluded_of_none {key : String} (h : l.room.session? key = none)
    (result : Except RoomError Unit) : concluded now key (l, result) = l := by
  unfold concluded
  split
  · rename_i he
    obtain ⟨rfl, -⟩ := Prod.mk.inj he
    exact terminate_of_none _ now h _
  · rename_i he
    exact (Prod.mk.inj he).1.symm

theorem brief_hear (key : String) (msg : ClientMessage) :
    Brief now (.ofMessage key msg) l (l.hear key msg now).1 := by
  rw [hear_eq]
  refine .cons (.touch l key) rfl ?_
  generalize hl₁ : ({ l with room := l.room.modifySession key (·.touch now) } : LiveRoom σ) = l₁
  cases msg with
  | connect request =>
    rw [dispatch]
    obtain ⟨_, -, he⟩ | ⟨s, waiting, msg, cause, _, hs, hw, hm, -, he⟩ | ⟨s, waiting, ha⟩ :=
      l₁.connect_cases now key request
    · rw [he]
      exact brief_concluded ..
    · have hsocket : s.socket? = some waiting.socket := by rw [Session.socket?, hw]
      rw [he]
      dsimp only
      rw [concluded_of_none _ _ (session?_remove ..)]
      have hm := ServerMessage.isNotice_of_isFarewell hm
      exact .cons (.tell l₁ hs hsocket hm) rfl (brief_remove _ now key _ cause)
    · rw [ha.connect]
      exact .one (.greets l₁ ha.session ha.state ha.presenceId)
  | push push =>
    have hb := l₁.brief_receivePush now key push
    rw [dispatch]
    obtain ⟨_, -, he⟩ | ⟨s, hs, hc, hkey⟩ := l₁.receivePush_cases now key push
    · rw [he]
      exact brief_concluded ..
    · rw [l₁.receivePush_of_connected now hs hc hkey] at hb ⊢
      exact hb
  | ping => exact .inner (.pong l₁ key)

/-- The room takes a message as it takes a frame: a lost session is not listened to. -/
def heed (l : LiveRoom σ) (key : String) (msg : ClientMessage) (now : Nat) : LiveRoom σ :=
  if (l.room.session? key).any (·.phase ≠ .awaitingRemoval) then (l.hear key msg now).1 else l

theorem heed_of_session {key : String} {s : Session} (hs : l.room.session? key = some s)
    (hphase : s.phase ≠ .awaitingRemoval) (msg : ClientMessage) :
    l.heed key msg now = (l.hear key msg now).1 := by
  rw [heed, hs]
  exact if_pos (decide_eq_true hphase)

theorem receive_eq_heed (key : String) {frame : Wire.Bytes} {msg : ClientMessage}
    (h : ClientMessage.decode frame = .ok msg) :
    (l.receive key frame now).1 = l.heed key msg now := by
  rw [receive, heed]
  cases l.room.session? key with
  | none => rfl
  | some s => by_cases hs : s.phase = .awaitingRemoval <;> simp [hs, h]

theorem brief_heed (key : String) (msg : ClientMessage) :
    Brief now (.ofMessage key msg) l (l.heed key msg now) := by
  rw [heed]
  split
  · exact l.brief_hear now key msg
  · exact .refl l

theorem brief_receive (key : String) (frame : Wire.Bytes) :
    Brief now (Operation.receive key frame).deed l (l.receive key frame now).1 := by
  cases hd : ClientMessage.decode frame with
  | ok msg =>
    rw [l.receive_eq_heed now key hd, Operation.deed, hd]
    exact l.brief_heed now key msg
  | error cause =>
    rw [receive]
    split
    · exact .refl l
    · split
      · exact .refl l
      · rw [hd]
        exact brief_terminate ..

theorem turns_expirations (expired : List (String × Expiry)) :
    Turns now ((expirations now l expired).map (·.room.moment)) l
      (expired.foldl (expireSession now) l) := by
  induction expired generalizing l with
  | nil => exact .refl l
  | cons e rest ih =>
    exact .step (l.turn_expireSession now e) (ih (expireSession now l e))

theorem brief_flush (keys : List String) :
    Brief now .inner l (keys.foldl (flushSession now) l) := by
  induction keys generalizing l with
  | nil => exact .refl l
  | cons key rest ih =>
    exact .cons (.flush l key) (l.steady_flushSession now key).moment
      (ih (flushSession now l key))

theorem turns_tick :
    ∃ ms, Turns now ms l (l.tick now).1 ∧
      ∀ m, m ∈ l.room.moment :: ms ↔ m ∈ l.room.moment ::
        (l.passing ⟨now, .tick⟩ ++ [(l.tick now).1.room.moment]) := by
  let l₁ := (l.expired now).foldl (expireSession now) l
  let l₂ := (Host.visit l₁.host l₁.room.connectedKeys).foldl (flushSession now) l₁
  have hquiet : l₁.room.Steady l₂.room :=
    (delivery_steady now).foldl l₁ (fun l key => l.steady_flushSession now key) _
  obtain ⟨ms, hms, hmem⟩ : Brief now .inner l₁ l₂.takeEvents.1 :=
    (l₁.brief_flush now _).concat (.note l₂ l₂.room.forbidden []) rfl
  have hall := (l.turns_expirations now (l.expired now)).trans hms.turns
  refine ⟨_, hall, fun m => ?_⟩
  have hlast := hall.last
  refine ⟨fun h => ?_, fun h => ?_⟩
  · obtain h | h := List.mem_cons.1 h
    · exact h ▸ List.mem_cons_self
    · refine List.mem_cons_of_mem _ ?_
      obtain h | h := List.mem_append.1 h
      · exact List.mem_append_left _ h
      · refine List.mem_append_right _ (List.mem_singleton.2 ?_)
        exact (hmem m h).elim (fun h => h.trans hquiet.moment.symm) id
  · obtain h | h := List.mem_cons.1 h
    · exact h ▸ List.mem_cons_self
    · obtain h | h := List.mem_append.1 h
      · exact List.mem_cons_of_mem _ (List.mem_append_left _ h)
      · exact (List.mem_singleton.1 h) ▸ hlast

theorem episode_perform (call : Call) :
    ∃ ms, Episode call.now call.operation.deed ms l (l.perform call) ∧
      ∀ m, m ∈ l.room.moment :: ms ↔
        m ∈ l.room.moment :: (l.passing call ++ [(l.perform call).room.moment]) := by
  -- Where the records change at most once, nothing lies between the beginning and the end.
  have hbrief : l.passing call = [] → Brief call.now call.operation.deed l (l.perform call) →
      ∃ ms, Episode call.now call.operation.deed ms l (l.perform call) ∧
        ∀ m, m ∈ l.room.moment :: ms ↔
          m ∈ l.room.moment :: (l.passing call ++ [(l.perform call).room.moment]) := by
    rintro hp ⟨ms, hms, hmem⟩
    refine ⟨ms, hms, fun m => ?_⟩
    have hlast := hms.last
    simp only [hp, List.nil_append, List.mem_cons, List.not_mem_nil, or_false]
    refine ⟨fun h => h.elim .inl (hmem m), fun h => h.elim .inl fun h => ?_⟩
    rw [h]
    exact List.mem_cons.1 hlast
  obtain ⟨now, operation⟩ := call
  cases operation with
  | openSocket key socket info => exact hbrief rfl (l.brief_openSocket now key socket info)
  | receive key frame => exact hbrief rfl (l.brief_receive now key frame)
  | connect key request => exact hbrief rfl (l.brief_connect now key request)
  | push key push => exact hbrief rfl (l.brief_receivePush now key push)
  | socketClosed key socket => exact hbrief rfl (l.brief_socketClosed now key _ socket)
  | kick key => exact hbrief rfl (l.brief_kick now key _)
  | takeEvents => exact hbrief rfl (l.brief_takeEvents now _)
  | tick =>
    obtain ⟨ms, hms, hmem⟩ := l.turns_tick now
    exact ⟨ms, .undone hms, hmem⟩

theorem run_keeps {P : LiveRoom σ → Prop}
    (hturn : ∀ now deed (l l' : LiveRoom σ), Turn now deed l l' → P l → P l') {l : LiveRoom σ}
    (h : P l) (calls : List Call) : P (l.run calls) := by
  have hturns : ∀ {now ms} {l l' : LiveRoom σ}, Turns now ms l l' → P l → P l' := by
    intro now ms l l' hms
    induction hms with
    | refl l => exact id
    | step ht _ ih => exact fun h => ih (hturn _ _ _ _ ht h)
  induction calls generalizing l with
  | nil => exact h
  | cons call rest ih =>
    refine ih (l := l.perform call) ?_
    obtain ⟨ms, hepisode, -⟩ := l.episode_perform call
    cases hepisode with
    | undone hms => exact hturns hms h
    | done hms hdeed => exact hturn _ _ _ _ hdeed (hturns hms h)

end LiveRoom

end RoomSync
