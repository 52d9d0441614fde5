import RoomSync.Proofs.Room.Seat

namespace RoomSync

open Table Room

namespace LiveRoom

variable {σ : Type}

theorem stage_of_connected {l : LiveRoom (Journal σ)} {key : String} {s : Session} {c : Connected}
    (hs : l.room.session? key = some s) (hc : s.state = .connected c) (socket : SocketId) :
    (l.seat key socket).stage =
      if c.socket = socket then some (.connected s.presenceId c.outbox) else none := by
  simp [seat, hs, Session.stage?, hc]

variable [Host σ] (l : LiveRoom (Journal σ)) {key : String} {socket : SocketId} {now : Nat}

theorem seat_sendData_of_ne (ha : l.room.Alone key socket) {k : String} (hk : k ≠ key)
    (msg : DataMessage) : (l.sendData k msg now).seat key socket = l.seat key socket := by
  rw [sendData]
  cases hc : l.room.connected? k with
  | none => rfl
  | some c =>
    obtain ⟨s, hs, hstate⟩ := connected?_eq_some.1 hc
    have hne : c.socket ≠ socket := fun he =>
      hk (ha k s hs (by rw [Session.socket?, hstate, ← he]))
    let o := c.outbox.enqueue msg now l.room.config
    have hq := l.steady_setOutbox k o.1
    have hset : (l.setOutbox k o.1).seat key socket = l.seat key socket :=
      l.seat_setOutbox_of_ne hk o.1
    have ha' := hq.inherits.alone ha
    dsimp only
    split
    · rw [seat_sendFrame_of_ne _ ha' hk hne, hset]
    · exact hset
    · rw [seat_cancel_of_ne _ ha' hk, hset]

theorem takes_sendData (hr : (l.seat key socket).Ready) (msg : DataMessage) :
    Takes [msg] (l.seat key socket) ((l.sendData key msg now).seat key socket) := by
  rw [sendData]
  cases hc : l.room.connected? key with
  | none =>
    refine .of_not_connected fun own o hstage => ?_
    obtain ⟨s, c, hs, hstate, -⟩ := stage_eq_connected hstage
    exact connected?_eq_none hc hs c hstate
  | some c =>
    obtain ⟨s, hs, hstate⟩ := connected?_eq_some.1 hc
    have hstage := stage_of_connected hs hstate socket
    let o := c.outbox.enqueue msg now l.room.config
    dsimp only
    by_cases hsocket : c.socket = socket
    · rw [if_pos hsocket] at hstage
      have hset : (l.setOutbox key o.1).seat key socket =
          { l.seat key socket with stage := some (.connected s.presenceId o.1) } := by
        rw [l.seat_setOutbox, hstage]
      have hstage' : ((l.setOutbox key o.1).seat key socket).stage =
          some (.connected s.presenceId o.1) := by rw [hset]
      obtain hp | ⟨hp, hheld⟩ | ⟨hp, hempty, hheld⟩ :=
        Outbox.enqueue_cases msg now l.room.config (hr _ _ hstage)
      · rw [hp]
        dsimp only
        obtain ⟨_, _, -, he⟩ | ⟨hno, -⟩ :=
          (l.setOutbox key o.1).seat_cancel key socket .slowConsumer now
        · exact .of_lost hstage (he.trans (by rw [hset]))
        · exact absurd hstage' (hno _ _)
      · rw [hp]
        refine .connected s.presenceId c.outbox o.1 [] hstage (by rw [hset, List.append_nil]) nofun
          ?_ (Outbox.lastSent_enqueue ..) (Outbox.windowed_enqueue msg now _)
        rw [List.flatMap_nil, List.nil_append, hheld]
        exact .refl _
      · rw [hp]
        dsimp only
        rw [hsocket]
        obtain he | he := (l.setOutbox key o.1).seat_sendFrame_connected hstage' (.data [msg]) now
        · refine .connected s.presenceId c.outbox o.1 [.data [msg]] hstage (he.trans (by rw [hset]))
            (fun m hm => by rw [List.mem_singleton.1 hm]; rfl) ?_ (Outbox.lastSent_enqueue ..)
            (Outbox.windowed_enqueue msg now _)
          rw [hempty, hheld]
          exact .refl _
        · exact .of_lost hstage (he.trans (by rw [hset]))
    · rw [if_neg hsocket] at hstage
      have hset : (l.setOutbox key o.1).seat key socket = l.seat key socket :=
        l.seat_setOutbox_vacant hstage o.1
      have hstage' : ((l.setOutbox key o.1).seat key socket).stage = none := by rw [hset, hstage]
      refine .vacant hstage ?_
      split
      · rw [seat_sendFrame_vacant _ hstage' hsocket, hset]
      · exact hset
      · obtain ⟨_, _, hconnected, -⟩ | ⟨-, he⟩ :=
          (l.setOutbox key o.1).seat_cancel key socket .slowConsumer now
        · rw [hstage'] at hconnected
          cases hconnected
        · rw [he, hset]

theorem seat_sendPatch_of_ne (ha : l.room.Alone key socket) {k : String} (hk : k ≠ key)
    (changes : Changes) : (sendPatch changes now l k).seat key socket = l.seat key socket := by
  rw [sendPatch]
  cases l.room.connected? k with
  | none => rfl
  | some c => exact l.seat_sendData_of_ne ha hk _

theorem takes_sendPatch (hr : (l.seat key socket).Ready) {clock : Nat}
    (hclock : ∀ own o, (l.seat key socket).stage = some (.connected own o) → o.lastSent = clock)
    (changes : Changes) :
    Takes [.patch ⟨clock, l.room.clock, changes⟩] (l.seat key socket)
      ((sendPatch changes now l key).seat key socket) := by
  rw [sendPatch]
  cases hc : l.room.connected? key with
  | none =>
    refine .of_not_connected fun own o hstage => ?_
    obtain ⟨s, c, hs, hstate, -⟩ := stage_eq_connected hstage
    exact connected?_eq_none hc hs c hstate
  | some c =>
    obtain ⟨s, hs, hstate⟩ := connected?_eq_some.1 hc
    have hstage := stage_of_connected hs hstate socket
    have ht : Takes [.patch (c.outbox.patchTo l.room.clock changes)] (l.seat key socket)
        ((l.sendData key (.patch (c.outbox.patchTo l.room.clock changes)) now).seat key socket) :=
      l.takes_sendData hr _
    by_cases hsocket : c.socket = socket
    · rw [if_pos hsocket] at hstage
      rw [← hclock _ _ hstage]
      exact ht
    · rw [if_neg hsocket] at hstage
      exact .vacant hstage (ht.eq_of_vacant hstage)

theorem seat_foldl_sendPatch (ha : l.room.Alone key socket) (changes : Changes)
    {keys : List String} (hk : key ∉ keys) :
    (keys.foldl (sendPatch changes now) l).seat key socket = l.seat key socket := by
  induction keys generalizing l with
  | nil => rfl
  | cons k rest ih =>
    have hne : k ≠ key := fun he => hk (he ▸ List.mem_cons_self)
    have ha' := (l.steady_sendPatch changes now k).inherits.alone ha
    rw [List.foldl_cons, ih _ ha' fun h => hk (List.mem_cons_of_mem _ h)]
    exact l.seat_sendPatch_of_ne ha hne changes

theorem seat_broadcast_except (ha : l.room.Alone key socket) (changes : Changes) :
    (l.broadcast changes (some key) now).seat key socket = l.seat key socket := by
  refine l.seat_foldl_sendPatch ha changes fun h => ?_
  have h := (Host.visit_perm ..).mem_iff.1 h
  simpa using (List.mem_filter.1 h).2

theorem takes_broadcast (ha : l.room.Alone key socket) (hr : (l.seat key socket).Ready) {clock : Nat}
    (hclock : ∀ own o, (l.seat key socket).stage = some (.connected own o) → o.lastSent = clock)
    (changes : Changes) {except : Option String} (hexcept : except ≠ some key) :
    Takes [.patch ⟨clock, l.room.clock, changes⟩] (l.seat key socket)
      ((l.broadcast changes except now).seat key socket) := by
  let targets := l.room.connectedKeys.filter fun k => some k ≠ except
  have hperm : (Host.visit l.host targets).Perm targets := Host.visit_perm ..
  by_cases hk : key ∈ Host.visit l.host targets
  · have hnodup : (Host.visit l.host targets).Nodup :=
      hperm.nodup_iff.2 ((keys_nodup _).filter _)
    obtain ⟨before, after, hsplit⟩ := List.append_of_mem hk
    rw [hsplit, List.nodup_append] at hnodup
    obtain ⟨-, hafter, hdisjoint⟩ := hnodup
    let l₁ := before.foldl (sendPatch changes now) l
    have hq₁ : l.room.Steady l₁.room :=
      (delivery_steady now).foldl l (fun l k => l.steady_sendPatch changes now k) before
    have hq₂ := l₁.steady_sendPatch changes now key
    have hseat₁ : l₁.seat key socket = l.seat key socket :=
      l.seat_foldl_sendPatch ha changes fun h => hdisjoint key h key List.mem_cons_self rfl
    have hend : (l.broadcast changes except now) =
        after.foldl (sendPatch changes now) (sendPatch changes now l₁ key) := by
      rw [broadcast, hsplit, List.foldl_append, List.foldl_cons]
    rw [hend, seat_foldl_sendPatch _ (hq₂.inherits.alone (hq₁.inherits.alone ha)) changes
      (List.nodup_cons.1 hafter).1]
    have ht : Takes [.patch ⟨clock, l₁.room.clock, changes⟩] (l₁.seat key socket)
        ((sendPatch changes now l₁ key).seat key socket) :=
      l₁.takes_sendPatch (hseat₁ ▸ hr) (hseat₁ ▸ hclock) changes
    rw [hseat₁, Room.clock, hq₁.store] at ht
    exact ht
  · have hsame : (l.broadcast changes except now).seat key socket = l.seat key socket :=
      l.seat_foldl_sendPatch ha changes hk
    rw [hsame]
    refine .of_not_connected fun own o hstage => hk (hperm.mem_iff.2 ?_)
    obtain ⟨s, c, hs, hstate, -⟩ := stage_eq_connected hstage
    refine List.mem_filter.2 ⟨mem_connectedKeys.2 ⟨s, hs, ?_⟩, by simpa using Ne.symm hexcept⟩
    simp [Session.isConnected, Session.phase, hstate]

theorem seat_flushSession_of_ne (ha : l.room.Alone key socket) {k : String} (hk : k ≠ key) :
    (flushSession now l k).seat key socket = l.seat key socket := by
  rw [flushSession]
  cases hc : l.room.connected? k with
  | none => rfl
  | some c =>
    obtain ⟨s, hs, hstate⟩ := connected?_eq_some.1 hc
    have hne : c.socket ≠ socket := fun he =>
      hk (ha k s hs (by rw [Session.socket?, hstate, ← he]))
    let o := c.outbox.flushDue now l.room.config.debounce
    have hset : (l.setOutbox k o.1).seat key socket = l.seat key socket :=
      l.seat_setOutbox_of_ne hk o.1
    dsimp only
    split
    · exact hset
    · rw [seat_sendFrame_of_ne _ ((l.steady_setOutbox k o.1).inherits.alone ha) hk hne, hset]

theorem takes_flushSession (hr : (l.seat key socket).Ready) :
    Takes [] (l.seat key socket) ((flushSession now l key).seat key socket) := by
  rw [flushSession]
  cases hc : l.room.connected? key with
  | none => exact .refl hr
  | some c =>
    obtain ⟨s, hs, hstate⟩ := connected?_eq_some.1 hc
    have hstage := stage_of_connected hs hstate socket
    let o := c.outbox.flushDue now l.room.config.debounce
    dsimp only
    by_cases hsocket : c.socket = socket
    · rw [if_pos hsocket] at hstage
      have hwindowed := (hr _ _ hstage).flushDue now l.room.config.debounce
      have hset : (l.setOutbox key o.1).seat key socket =
          { l.seat key socket with stage := some (.connected s.presenceId o.1) } := by
        rw [l.seat_setOutbox, hstage]
      obtain ⟨hd, hheld⟩ | ⟨hd, hheld⟩ := c.outbox.flushDue_cases now l.room.config.debounce
      · rw [hd]
        refine .connected s.presenceId c.outbox o.1 [] hstage (by rw [hset, List.append_nil]) nofun
          ?_ (Outbox.lastSent_flushDue ..) hwindowed
        rw [List.flatMap_nil, List.nil_append, hheld, List.append_nil]
        exact .refl _
      · rw [hd]
        dsimp only
        rw [hsocket]
        obtain he | he := (l.setOutbox key o.1).seat_sendFrame_connected (by rw [hset])
          (.data (coalesce c.outbox.held)) now
        · refine .connected s.presenceId c.outbox o.1 [.data (coalesce c.outbox.held)] hstage
            (he.trans (by rw [hset])) (fun m hm => by rw [List.mem_singleton.1 hm]; rfl) ?_
            (Outbox.lastSent_flushDue ..) hwindowed
          rw [hheld, List.append_nil, List.append_nil, List.flatMap_cons, List.flatMap_nil,
            List.append_nil]
          exact (merges_coalesce _).1
        · exact .of_lost hstage (he.trans (by rw [hset]))
    · rw [if_neg hsocket] at hstage
      have hset : (l.setOutbox key o.1).seat key socket = l.seat key socket :=
        l.seat_setOutbox_vacant hstage o.1
      refine .vacant hstage ?_
      split
      · exact hset
      · rw [seat_sendFrame_vacant _ (by rw [hset, hstage]) hsocket, hset]

end LiveRoom

end RoomSync
