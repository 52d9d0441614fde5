import RoomSync.Proofs.Registry
import RoomSync.Server

namespace RoomSync

theorem Network.keeps_length (count : Nat) :
    Host.Keeps fun network : Network => network.sockets.length = count where
  send network socket msg h := by
    change (network.send socket msg).1.sockets.length = count
    unfold Network.send
    split
    · exact h
    · exact (List.length_modify _ _ _).trans h
  close network socket h := (List.length_modify _ _ _).trans h

structure Registry.OpensNone (r r' : Registry Network) : Prop where
  count : r'.host.sockets.length = r.host.sockets.length
  held : ∀ id key socket, r'.HasSocket id key socket → r.HasSocket id key socket

namespace Registry.OpensNone

variable {r r' : Registry Network}

theorem refl (r : Registry Network) : r.OpensNone r := ⟨rfl, fun _ _ _ h => h⟩

theorem perform (h : r.OpensNone r') (id : RoomId) {call : LiveRoom.Call}
    (hcall : call.OnOpenSockets) : r.OpensNone (r'.onRoom id (·.perform call)) where
  count :=
    have hk := Network.keeps_length r.host.sockets.length
    Registry.host_onRoom (P := fun network : Network => network.sockets.length = _) h.count
      fun _ hl => LiveRoom.host_perform hk hl call
  held id' key socket hs := h.held id' key socket (Registry.hasSocket_perform hcall hs)

theorem removeIfEmpty (h : r.OpensNone r') (document : String) :
    r.OpensNone (r'.removeIfEmpty document).1 where
  count := by rw [Registry.host_removeIfEmpty, h.count]
  held id key socket hs := h.held id key socket (Registry.hasSocket_removeIfEmpty hs)

theorem tickAll (r : Registry Network) (now : Nat) : r.OpensNone (r.tickAll now).1 :=
  Registry.tickAll_keeps now (fun _ id _ hcall h => h.perform id hcall)
    (fun _ document h => h.removeIfEmpty document) (refl r)

theorem kick (r : Registry Network) (document key : String) (now : Nat) :
    r.OpensNone (r.kick document key now).1 :=
  Registry.kick_keeps now (fun _ id _ hcall h => h.perform id hcall) (refl r) document key

theorem onNetwork (h : r.OpensNone r') (socket : SocketId) (f : Socket → Socket) :
    r.OpensNone { r' with host := r'.host.modify socket f } where
  count := (List.length_modify _ _ _).trans h.count
  held := h.held

end Registry.OpensNone

/-- What never changes in a connection. -/
def ServerConnection.seat (c : ServerConnection) : Route × SocketId × RoomId :=
  (c.route, c.socket, c.room)

namespace Server

inductive Event where
  | accepts (target : Target) (address : String)
  | hears (i : Nat) (frame : Frame)
  /-- The task of a connection finds that the client is gone. -/
  | hearsEnd (i : Nat)
  | forwards (i : Nat)
  | leaves (i : Nat)
  | ticks
  | kicks (document key : String)

def Event.connection? : Event → Option Nat
  | .hears i _ | .hearsEnd i | .forwards i | .leaves i => some i
  | .accepts _ _ | .ticks | .kicks _ _ => none

def step (s : Server) (now : Nat) : Event → Server
  | .accepts target address => (s.accept target address now).1
  | .hears i frame => (s.hear i frame now).1
  | .hearsEnd i => s.hearEnd i
  | .forwards i => (s.forward i).1
  | .leaves i => s.leave i now
  | .ticks => s.tick now
  | .kicks document key => (s.kick document key now).1

def run (s : Server) (events : List (Nat × Event)) : Server :=
  events.foldl (fun s event => s.step event.1 event.2) s

variable {s s' : Server}

theorem connection?_setTask (s : Server) (i : Nat) (task : TaskState) (m : Nat) :
    (s.setTask i task).connection? m =
      if m = i then (s.connection? m).map fun c => { c with task } else s.connection? m := by
  simp only [connection?, setTask, List.getElem?_modify]
  by_cases h : m = i
  · simp [h]
  · simp [h, Ne.symm h]

structure GoesOn (s s' : Server) : Prop where
  registry : s.registry.OpensNone s'.registry
  seats : s'.connections.map ServerConnection.seat = s.connections.map ServerConnection.seat

theorem seats_setTask (s : Server) (i : Nat) (task : TaskState) :
    (s.setTask i task).connections.map ServerConnection.seat =
      s.connections.map ServerConnection.seat := by
  refine List.ext_getElem? fun m => ?_
  simp only [setTask, List.getElem?_map, List.getElem?_modify]
  split <;> cases s.connections[m]? <;> rfl

theorem goesOn_stop (s : Server) (i : Nat) (c : ServerConnection) : s.GoesOn (s.stop i c) :=
  ⟨(Registry.OpensNone.refl _).onNetwork _ _, seats_setTask _ i .ending⟩

theorem goesOn_hear (s : Server) (i : Nat) (frame : Frame) (now : Nat) :
    s.GoesOn (s.hear i frame now).1 := by
  unfold hear
  cases s.running? i with
  | none => exact ⟨.refl _, rfl⟩
  | some c =>
    cases frame with
    | binary bytes =>
      let call : LiveRoom.Call := ⟨now, .receive c.route.sessionKey bytes⟩
      have hcall : call.OnOpenSockets := nofun
      exact ⟨(Registry.OpensNone.refl _).perform c.room hcall, rfl⟩
    | close => exact s.goesOn_stop i c
    | ping payload => exact ⟨.refl _, rfl⟩
    | text text => exact ⟨.refl _, rfl⟩
    | pong payload => exact ⟨.refl _, rfl⟩

theorem goesOn_hearEnd (s : Server) (i : Nat) : s.GoesOn (s.hearEnd i) := by
  unfold hearEnd
  cases s.running? i with
  | none => exact ⟨.refl _, rfl⟩
  | some c => exact s.goesOn_stop i c

theorem goesOn_forward (s : Server) (i : Nat) : s.GoesOn (s.forward i).1 := by
  unfold forward
  split
  · exact ⟨.refl _, rfl⟩
  · split
    · exact ⟨.refl _, rfl⟩
    · exact ⟨(Registry.OpensNone.refl _).onNetwork _ _, rfl⟩
    · exact ⟨.refl _, rfl⟩
    · exact s.goesOn_stop i _

theorem goesOn_leave (s : Server) (i now : Nat) : s.GoesOn (s.leave i now) := by
  unfold leave
  split
  · exact ⟨.refl _, rfl⟩
  · rename_i c _
    have hclosed : s.registry.OpensNone (s.registry.onRoom c.room fun l =>
        (l.socketClosed c.route.sessionKey c.socket now).close c.socket) := by
      let call : LiveRoom.Call := ⟨now, .socketClosed c.route.sessionKey c.socket⟩
      have hcall : call.OnOpenSockets := nofun
      have htold := (Registry.OpensNone.refl s.registry).perform c.room hcall
      cases hroom : s.registry.room? c.room with
      | none => exact (Registry.onRoom_of_none hroom).symm ▸ .refl _
      | some room =>
        rw [Registry.onRoom_of_some hroom] at htold ⊢
        exact htold.onNetwork c.socket Socket.close
    exact ⟨hclosed.removeIfEmpty c.route.documentId, s.seats_setTask i .ended⟩

theorem GoesOn.connection? (h : s.GoesOn s') {m : Nat} {c' : ServerConnection}
    (hc : s'.connection? m = some c') : ∃ c, s.connection? m = some c ∧ c.seat = c'.seat := by
  have hm := congrArg (·[m]?) h.seats
  simp only [List.getElem?_map] at hm
  rw [Server.connection?] at hc
  rw [hc, Option.map_some] at hm
  exact Option.map_eq_some_iff.1 hm.symm

theorem GoesOn.symm_connection? (h : s.GoesOn s') {m : Nat} {c : ServerConnection}
    (hc : s.connection? m = some c) : ∃ c', s'.connection? m = some c' ∧ c'.seat = c.seat := by
  have hm := congrArg (·[m]?) h.seats
  simp only [List.getElem?_map] at hm
  rw [Server.connection?] at hc
  rw [hc, Option.map_some] at hm
  exact Option.map_eq_some_iff.1 hm

/-- Sockets are numbered like the connections, and a session has the socket of the newest connection
that was let into its room under its key. -/
structure Attended (s : Server) : Prop where
  count : s.registry.host.sockets.length = s.connections.length
  own : ∀ i c, s.connection? i = some c → c.socket = i
  newest : ∀ id key socket, s.registry.HasSocket id key socket →
    ∃ c, s.connection? socket = some c ∧ c.room = id ∧ c.route.sessionKey = key ∧
      ∀ i d, s.connection? i = some d → d.room = id → d.route.sessionKey = key → i ≤ socket

theorem Attended.goesOn (h : s.Attended) (hs : s.GoesOn s') : s'.Attended where
  count := by
    have hlength := congrArg List.length hs.seats
    simp only [List.length_map] at hlength
    rw [hs.registry.count, h.count, hlength]
  own i c hc := by
    obtain ⟨b, hb, hseat⟩ := hs.connection? hc
    exact (congrArg (·.2.1) hseat).symm.trans (h.own i b hb)
  newest id key socket hheld := by
    obtain ⟨c, hc, rfl, rfl, hnewest⟩ := h.newest id key socket (hs.registry.held id key socket hheld)
    obtain ⟨c', hc', hseat⟩ := hs.symm_connection? hc
    refine ⟨c', hc', ?_, ?_, fun i d hd hroom hkey => ?_⟩
    · exact congrArg (·.2.2) hseat
    · exact congrArg (·.1.sessionKey) hseat
    · obtain ⟨b, hb, hbseat⟩ := hs.connection? hd
      refine hnewest i b hb ?_ ?_
      · exact (congrArg (·.2.2) hbseat).trans hroom
      · exact (congrArg (·.1.sessionKey) hbseat).trans hkey

theorem Attended.accept (h : s.Attended) (target : Target) (address : String) (now : Nat) :
    (s.accept target address now).1.Attended := by
  unfold Server.accept
  cases Route.ofTarget target with
  | error reason => exact ⟨h.count, h.own, h.newest⟩
  | ok route =>
    let sockets := s.registry.host.sockets ++ [{ kind := .channel s.config.outboundBuffer }]
    let opened : Registry Network := { s.registry with host := ⟨sockets⟩ }
    have hcount : opened.host.sockets.length = s.connections.length + 1 := by
      simp only [opened, sockets, List.length_append, List.length_singleton, h.count]
    dsimp only [Network.openSocket]
    refine ⟨?_, fun i c hc => ?_, fun id key socket hheld => ?_⟩
    · rw [List.length_append, List.length_singleton]
      exact Registry.host_openSession (P := fun network : Network => network.sockets.length = _)
        (Network.keeps_length _) hcount ..
    · obtain hc | ⟨rfl, rfl⟩ := getElem?_append_singleton hc
      · exact h.own i c hc
      · exact h.count
    · obtain ⟨rfl, rfl, rfl⟩ | ⟨hother, hheld⟩ := Registry.hasSocket_openSession hheld
      · refine ⟨_, by rw [h.count]; exact List.getElem?_concat_length, rfl, rfl,
          fun i d hd _ _ => ?_⟩
        obtain hd | ⟨rfl, -⟩ := getElem?_append_singleton hd
        · exact h.count ▸ Nat.le_of_lt (List.getElem?_eq_some_iff.1 hd).1
        · exact Nat.le_of_eq h.count.symm
      · obtain ⟨c, hc, hroom, hkey, hnewest⟩ := h.newest id key socket hheld
        refine ⟨c, ?_, hroom, hkey, fun i d hd hdroom hdkey => ?_⟩
        · exact (List.getElem?_append_left (List.getElem?_eq_some_iff.1 hc).1).trans hc
        · obtain hd | ⟨-, rfl⟩ := getElem?_append_singleton hd
          · exact hnewest i d hd hdroom hdkey
          · exact absurd ⟨hdroom.symm, hdkey.symm⟩ hother

theorem attended_step (h : s.Attended) (now : Nat) (event : Event) :
    (s.step now event).Attended := by
  cases event with
  | accepts target address => exact h.accept target address now
  | hears i frame => exact h.goesOn (s.goesOn_hear i frame now)
  | hearsEnd i => exact h.goesOn (s.goesOn_hearEnd i)
  | forwards i => exact h.goesOn (s.goesOn_forward i)
  | leaves i => exact h.goesOn (s.goesOn_leave i now)
  | ticks => exact h.goesOn ⟨Registry.OpensNone.tickAll _ now, rfl⟩
  | kicks document key => exact h.goesOn ⟨Registry.OpensNone.kick _ document key now, rfl⟩

theorem attended_run (config : ServerConfig) (snapshots : Table Snapshot)
    (events : List (Nat × Event)) : ((start config snapshots).run events).Attended := by
  have hstart : (start config snapshots).Attended := ⟨rfl, nofun, nofun⟩
  have hrun : ∀ s : Server, s.Attended → (s.run events).Attended := by
    induction events with
    | nil => exact fun _ h => h
    | cons event rest ih => exact fun s h => ih _ (attended_step h event.1 event.2)
  exact hrun _ hstart

end Server

end RoomSync
