import RoomSync.Proofs.Room.Past
import RoomSync.Proofs.Server

namespace RoomSync

open Table

namespace LiveRoom

variable {σ : Type} [Host σ] {l : LiveRoom σ}

theorem socketClosed_of_ne {key : String} {socket : SocketId}
    (h : ∀ s, l.room.session? key = some s → s.socket? ≠ some socket) (now : Nat) :
    l.socketClosed key socket now = l := by
  unfold socketClosed
  split
  · rfl
  · rename_i s hs
    exact if_pos (h s hs)

theorem session?_receive_push {key : String} {s : Session} {waiting : Waiting}
    (hs : l.room.session? key = some s) (hw : s.state = .awaitingConnect waiting)
    {frame : Wire.Bytes} {push : Push} (hframe : ClientMessage.decode frame = .ok (.push push))
    (now : Nat) : (l.receive key frame now).1.room.session? key = none := by
  have hphase : s.phase ≠ .awaitingRemoval := by
    simp [Session.phase, hw]
  rw [receive_eq_heed _ _ _ hframe, heed_of_session _ _ hs hphase, hear_eq]
  generalize hl' : ({ l with room := l.room.modifySession key (·.touch now) } : LiveRoom σ) = l'
  have hs' : l'.room.session? key = some s := by
    rw [← hl', Room.session?_modifySession, if_pos rfl, hs, Option.map_some, Session.touch,
      Session.mapConnected, hw]
  have hrefused : ∃ error, l'.receivePush key push now = (l', .error (.protocol error)) := by
    by_cases hkey : push.sessionKey = key
    · refine ⟨.unexpectedMessage .push s.phase, ?_⟩
      simp [receivePush, hkey, hs', Session.isConnected, Session.phase, hw]
    · exact ⟨.sessionKeyMismatch key push.sessionKey, by rw [receivePush, if_pos hkey]⟩
  obtain ⟨error, herror⟩ := hrefused
  rw [dispatch, herror]
  change (l'.terminate key error now).room.session? key = none
  rw [terminate, hs', Option.bind_some, Session.socket?, hw]
  exact session?_remove ..

end LiveRoom

namespace Server

variable {s s' : Server} {i j : Nat} {c d : ServerConnection}

/-- Nothing happens but to the socket and to the task of one connection. -/
structure Spares (s s' : Server) (i : Nat) (c : ServerConnection) : Prop where
  room : s'.registry.room? c.room = s.registry.room? c.room
  live : ∀ document room, s.registry.room? c.room = some room → room.isEmpty = false →
    s.registry.live.get? document = some c.room → s'.registry.live.get? document = some c.room
  sockets : ∀ socket, socket ≠ c.socket →
    s'.registry.host.socket? socket = s.registry.host.socket? socket
  connections : ∀ m, m ≠ i → s'.connection? m = s.connection? m

theorem Spares.refl (s : Server) (i : Nat) (c : ServerConnection) : s.Spares s i c :=
  ⟨rfl, fun _ _ _ _ h => h, fun _ _ => rfl, fun _ _ => rfl⟩

theorem socket?_modify (network : Network) {socket socket' : SocketId} (h : socket ≠ socket')
    (f : Socket → Socket) : (network.modify socket' f).socket? socket = network.socket? socket := by
  simp [Network.modify, Network.socket?, Ne.symm h]

theorem spares_modifyNetwork (s : Server) (i : Nat) (c : ServerConnection) (f : Socket → Socket) :
    s.Spares (s.modifyNetwork fun n => n.modify c.socket f) i c :=
  ⟨rfl, fun _ _ _ _ h => h, fun _ hne => socket?_modify _ hne f, fun _ _ => rfl⟩

theorem spares_stop (s : Server) (i : Nat) (c : ServerConnection) : s.Spares (s.stop i c) i c where
  room := rfl
  live _ _ _ _ h := h
  sockets _ hne := socket?_modify _ hne Socket.abandon
  connections m hm := by rw [stop, connection?_setTask, if_neg hm]; rfl

theorem told_stale {r : Registry Network} {id : RoomId} {key : String} {socket : SocketId}
    (hstale : ¬r.HasSocket id key socket) (now : Nat) :
    let told := r.onRoom id fun l => (l.socketClosed key socket now).close socket
    told.room? id = r.room? id ∧
      ∀ socket', socket' ≠ socket → told.host.socket? socket' = r.host.socket? socket' := by
  intro told
  cases hroom : r.room? id with
  | none =>
    have htold : told = r := Registry.onRoom_of_none hroom
    exact ⟨htold ▸ hroom, fun _ _ => by rw [htold]⟩
  | some room =>
    have hignored : LiveRoom.socketClosed ⟨room, r.host⟩ key socket now = ⟨room, r.host⟩ :=
      LiveRoom.socketClosed_of_ne
        (fun session hsession hsocket => hstale ⟨room, hroom, session, hsession, hsocket⟩) now
    refine ⟨?_, fun socket' hne => ?_⟩
    · rw [Registry.room?_onRoom_self hroom, hignored]
      rfl
    · simp only [told, Registry.onRoom_of_some hroom, hignored]
      exact socket?_modify _ hne Socket.close

theorem spares_leave (hc : s.connection? i = some c)
    (hstale : ¬s.registry.HasSocket c.room c.route.sessionKey c.socket) (now : Nat) :
    s.Spares (s.leave i now) i c := by
  by_cases hending : c.task = .ending
  · let told := s.registry.onRoom c.room fun l =>
      (l.socketClosed c.route.sessionKey c.socket now).close c.socket
    obtain ⟨hroom, hsockets⟩ : told.room? c.room = s.registry.room? c.room ∧
        ∀ socket, socket ≠ c.socket →
          told.host.socket? socket = s.registry.host.socket? socket := told_stale hstale now
    have hleave : s.leave i now = { s.setTask i .ended with
        registry := (told.removeIfEmpty c.route.documentId).1
        stats := { s.stats with activeConnections := s.stats.activeConnections - 1 } } := by
      simp [leave, hc, Option.filter, hending, told]
    rw [hleave]
    refine ⟨?_, fun document room hfound hfull hlive => ?_, fun socket hne => ?_, fun m hm => ?_⟩
    · rw [← hroom]
      simp only [Registry.room?, Registry.rooms_removeIfEmpty]
    · have hlive : told.live.get? document = some c.room := by
        simpa only [told, Registry.live_onRoom] using hlive
      exact Registry.live_removeIfEmpty (hroom.trans hfound) hfull hlive _
    · rw [← hsockets socket hne]
      simp only [Registry.host_removeIfEmpty]
    · exact (s.connection?_setTask i .ended m).trans (if_neg hm)
  · have hleave : s.leave i now = s := by simp [leave, hc, Option.filter, hending]
    rw [hleave]
    exact .refl s i c

theorem running?_eq (hc : s.connection? i = some c) :
    s.running? i = if c.task = .running then some c else none := by
  simp [running?, hc, Option.filter]

/-- Nothing that the task of a connection does reaches a session which has another socket, unless
the task takes a message. -/
theorem spares_step (hc : s.connection? i = some c)
    (hstale : ¬s.registry.HasSocket c.room c.route.sessionKey c.socket) (now : Nat) {event : Event}
    (hevent : event.connection? = some i)
    (hmessage : ∀ bytes, event = .hears i (.binary bytes) → c.task ≠ .running) :
    s.Spares (s.step now event) i c := by
  cases event with
  | accepts target address => cases hevent
  | ticks => cases hevent
  | kicks document key => cases hevent
  | hears m frame =>
    obtain rfl : m = i := Option.some.inj hevent
    by_cases hrunning : c.task = .running
    · simp only [step, hear, running?_eq hc, if_pos hrunning]
      cases frame with
      | binary bytes => exact absurd hrunning (hmessage bytes rfl)
      | close => exact spares_stop s m c
      | ping payload => exact .refl s m c
      | text text => exact .refl s m c
      | pong payload => exact .refl s m c
    · simp only [step, hear, running?_eq hc, if_neg hrunning]
      exact .refl s m c
  | hearsEnd m =>
    obtain rfl : m = i := Option.some.inj hevent
    by_cases hrunning : c.task = .running
    · simp only [step, hearEnd, running?_eq hc, if_pos hrunning]
      exact spares_stop s m c
    · simp only [step, hearEnd, running?_eq hc, if_neg hrunning]
      exact .refl s m c
  | forwards m =>
    obtain rfl : m = i := Option.some.inj hevent
    by_cases hrunning : c.task = .running
    · simp only [step, forward, running?_eq hc, if_pos hrunning]
      split
      · exact .refl s m c
      · exact spares_modifyNetwork s m c _
      · exact .refl s m c
      · exact spares_stop s m c
    · simp only [step, forward, running?_eq hc, if_neg hrunning]
      exact .refl s m c
  | leaves m =>
    obtain rfl : m = i := Option.some.inj hevent
    exact spares_leave hc hstale now

theorem hearMessage_congr (hroom : c.room = d.room)
    (hkey : c.route.sessionKey = d.route.sessionKey) (bytes : Wire.Bytes) (now : Nat) :
    s.hearMessage c bytes now = s.hearMessage d bytes now := by
  rw [hearMessage, hearMessage, hroom, hkey]

theorem Attended.stale (h : s.Attended) (hij : i < j) (hc : s.connection? i = some c)
    (hd : s.connection? j = some d) (hroom : c.room = d.room)
    (hkey : c.route.sessionKey = d.route.sessionKey) :
    ¬s.registry.HasSocket c.room c.route.sessionKey c.socket := by
  intro hheld
  obtain ⟨b, -, -, -, hnewest⟩ := h.newest _ _ _ hheld
  have hji := hnewest j d hd hroom.symm hkey.symm
  rw [h.own i c hc] at hji
  omega

/-- Of two connections of one key to one room, the task of the older one never does anything to the
room or to the newer one, except that a message which it still takes has the effect that it would
have on the newer connection. -/
theorem replaced_spares_iff (config : ServerConfig) (snapshots : Table Snapshot)
    (events : List (Nat × Event)) (hij : i < j)
    (hc : ((start config snapshots).run events).connection? i = some c)
    (hd : ((start config snapshots).run events).connection? j = some d)
    (hroom : c.room = d.room) (hkey : c.route.sessionKey = d.route.sessionKey) (now : Nat)
    {event : Event} (hevent : event.connection? = some i) :
    let s := (start config snapshots).run events
    (s.Spares (s.step now event) i c ↔ ∀ bytes, event = .hears i (.binary bytes) →
        c.task = .running → s.Spares (s.hearMessage d bytes now) i c) ∧
      ∀ bytes, event = .hears i (.binary bytes) → c.task = .running →
        s.step now event = s.hearMessage d bytes now := by
  intro s
  have hstale := (attended_run config snapshots events).stale hij hc hd hroom hkey
  have hheard : ∀ bytes, event = .hears i (.binary bytes) → c.task = .running →
      s.step now event = s.hearMessage d bytes now := by
    rintro bytes rfl hrunning
    have hc : s.connection? i = some c := hc
    simp only [step, hear, running?_eq hc, if_pos hrunning]
    exact hearMessage_congr hroom hkey bytes now
  refine ⟨⟨fun hspares bytes hbytes hrunning => ?_, fun hspares => ?_⟩, hheard⟩
  · rw [← hheard bytes hbytes hrunning]
    exact hspares
  · by_cases hmessage : ∃ bytes, event = .hears i (.binary bytes) ∧ c.task = .running
    · obtain ⟨bytes, hbytes, hrunning⟩ := hmessage
      rw [hheard bytes hbytes hrunning]
      exact hspares bytes hbytes hrunning
    · exact spares_step hc hstale now hevent fun bytes hbytes hrunning =>
        hmessage ⟨bytes, hbytes, hrunning⟩

/-- A client connects, and is replaced by another one with its key before that one's handshake. -/
def replacement : List (Nat × Event) :=
  let target : Target := ⟨"/d", some "sessionKey=a"⟩
  let request : ConnectRequest := ⟨"a", "p", ⟨1, ["presence"]⟩, none⟩
  [(0, .accepts target "first"), (1, .hears 0 (.binary (ClientMessage.connect request).encode)),
    (2, .accepts target "second")]

/-- The older connection finds its socket closed, and its last step spares the newer one. -/
theorem replaced_spares_on_leaving :
    let s := (start { room := Config.notes } Table.empty).run
      (replacement ++ [(3, .forwards 0), (4, .forwards 0)])
    s.Spares (s.step 5 (.leaves 0)) 0 ⟨⟨"d", "a"⟩, 0, 0, .ending⟩ := by
  have hc : ((start { room := Config.notes } Table.empty).run
      (replacement ++ [(3, .forwards 0), (4, .forwards 0)])).connection? 0 =
        some ⟨⟨"d", "a"⟩, 0, 0, .ending⟩ := by decide +kernel
  have hd : ((start { room := Config.notes } Table.empty).run
      (replacement ++ [(3, .forwards 0), (4, .forwards 0)])).connection? 1 =
        some ⟨⟨"d", "a"⟩, 1, 0, .running⟩ := by decide +kernel
  exact (replaced_spares_iff _ _ _ Nat.zero_lt_one hc hd rfl rfl 5 rfl).1.2 nofun

/-- A push that still comes in on the older connection ends a session which waits for the handshake
of the newer one. -/
theorem session?_hear_stale_push (hc : s.running? i = some c) {room : Room}
    (hroom : s.registry.room? c.room = some room) {session : Session} {waiting : Waiting}
    (hsession : room.session? c.route.sessionKey = some session)
    (hwaiting : session.state = .awaitingConnect waiting) {bytes : Wire.Bytes} {push : Push}
    (hbytes : ClientMessage.decode bytes = .ok (.push push)) (now : Nat) :
    ∃ room', (s.step now (.hears i (.binary bytes))).registry.room? c.room = some room' ∧
      room'.session? c.route.sessionKey = none := by
  refine ⟨_, ?_, LiveRoom.session?_receive_push (l := ⟨room, s.registry.host⟩) hsession hwaiting
    hbytes now⟩
  simp only [step, hear, hc]
  exact Registry.room?_onRoom_self hroom

/-- The session of the newer connection is there, and is gone once the older one is heard. -/
theorem stale_push_ends_successor :
    let s := (start { room := Config.notes } Table.empty).run replacement
    let push : ClientMessage := .push ⟨"a", 1, [⟨"n", .upsert "note" (.object [])⟩], none⟩
    let heard := s.step 3 (.hears 0 (.binary push.encode))
    (s.connection? 0 = some ⟨⟨"d", "a"⟩, 0, 0, .running⟩ ∧
        s.connection? 1 = some ⟨⟨"d", "a"⟩, 1, 0, .running⟩) ∧
      (s.registry.room? 0).map (·.sessions.values.map Session.socket?) = some [some 1] ∧
      (heard.registry.room? 0).map (·.sessions.values.map Session.socket?) = some [] := by
  decide +kernel

end Server

end RoomSync
