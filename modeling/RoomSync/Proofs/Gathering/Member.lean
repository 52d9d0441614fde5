import RoomSync.Proofs.Gathering
import RoomSync.Proofs.Gathering.InTouch

namespace RoomSync

open Table Room LiveRoom

/-- The newest connection of a member belongs to its newest socket, and the two ends of it stand to
each other in some way. -/
structure Member.Attached
    (link : SocketId → ConnectionState → Draft → Nat → List ClientMessage → Prop) (opened : Nat)
    (m : Member) (connection : Connection) : Prop where
  writing : connection.writing = true
  generation : connection.generation ≤ m.client.generation
  opened : m.socket < opened
  linked : link m.socket m.client.state m.client.draft m.read connection.outgoing

namespace Member.Attached

variable {link link' : SocketId → ConnectionState → Draft → Nat → List ClientMessage → Prop}
  {opened opened' : Nat} {m : Member}

theorem writes
    (h : ∀ connection, m.client.line? = some connection → m.Attached link opened connection) :
    m.client.Writes := fun connection hl => (h connection hl).writing

theorem becomes
    (h : ∀ connection, m.client.line? = some connection → m.Attached link opened connection)
    {c : Client} {draft : Draft} {g : List ClientMessage → List ClientMessage} {read : Nat}
    (hb : m.client.Becomes c draft g)
    (hlinked : ∀ connection, m.client.line? = some connection →
      link m.socket m.client.state m.client.draft m.read connection.outgoing →
      link' m.socket c.state draft read (g connection.outgoing)) :
    ∀ connection, c.line? = some connection →
      Attached link' opened { m with client := c, read } connection := by
  intro connection' hl
  obtain ⟨connection, hl, hgeneration, hwriting, hout⟩ := hb.line connection' hl
  obtain ⟨hwrites, hle, hopened, hlink⟩ := h connection hl
  refine ⟨hwriting.trans hwrites, ?_, hopened, ?_⟩
  · change connection'.generation ≤ c.generation
    rw [hgeneration, hb.generation]
    exact hle
  · change link' m.socket c.state c.draft read connection'.outgoing
    rw [hb.draft, hout]
    exact hlinked connection hl hlink

theorem imp {connection : Connection} (h : m.Attached link opened connection)
    (hle : opened ≤ opened')
    (hlink : link m.socket m.client.state m.client.draft m.read connection.outgoing →
      link' m.socket m.client.state m.client.draft m.read connection.outgoing) :
    m.Attached link' opened' connection :=
  ⟨h.writing, h.generation, Nat.lt_of_lt_of_le h.opened hle, hlink h.linked⟩

end Member.Attached

variable {σ : Type} {past past' : List Moment} {l l' : LiveRoom (Journal σ)} {opened opened' : Nat}
  {key : String} {m : Member}

structure Member.Sound (past : List Moment) (l : LiveRoom (Journal σ)) (opened : Nat)
    (key : String) (m : Member) : Prop where
  sessionKey : m.client.draft.sessionKey = key
  numbered : m.client.draft.Numbered
  known : m.client.draft.Known m.client.presenceId past
  dialing : ∀ request, m.dialing = some request →
    Requests m.client.presenceId key m.client.draft request ∧ m.client.Lags
  attached : ∀ connection, m.client.line? = some connection →
    m.Attached (Linked m.client.presenceId key past l) opened connection

namespace Member

theorem link?_eq_some (key : String) {i : Nat} {connection : Connection}
    (h : m.link? l = some (i, connection)) :
    (l.seat key m.socket).closed = false ∧ m.client.current = some i ∧
      m.client.connection? i = some connection := by
  rw [link?] at h
  split at h
  · cases h
  · rename_i hopen
    obtain ⟨j, hj, h⟩ := Option.bind_eq_some_iff.1 h
    obtain ⟨connection', hc, he⟩ := Option.map_eq_some_iff.1 h
    obtain ⟨rfl, rfl⟩ := Prod.mk.inj he
    exact ⟨decide_eq_false hopen, hj, hc⟩

theorem incoming?_eq_some (key : String) {i : Nat} {connection : Connection} {msg : ServerMessage}
    (h : m.incoming? l = some (i, connection, msg)) :
    m.link? l = some (i, connection) ∧ (l.seat key m.socket).taken[m.read]? = some msg := by
  obtain ⟨⟨j, connection'⟩, hlink, h⟩ := Option.bind_eq_some_iff.1 h
  dsimp only at h
  split at h
  · obtain ⟨msg', hmsg, he⟩ := Option.bind_eq_some_iff.1 h
    obtain ⟨rfl, rfl, rfl⟩ := Option.some.inj he
    exact ⟨hlink, hmsg⟩
  · cases h

theorem outgoing?_eq_some {i : Nat} {msg : ClientMessage} (h : m.outgoing? l = some (i, msg)) :
    ∃ connection rest, m.link? l = some (i, connection) ∧ connection.outgoing = msg :: rest := by
  obtain ⟨⟨j, connection⟩, hlink, h⟩ := Option.bind_eq_some_iff.1 h
  dsimp only at h
  split at h
  · obtain ⟨msg', hmsg, he⟩ := Option.bind_eq_some_iff.1 h
    obtain ⟨rfl, rfl⟩ := Option.some.inj he
    obtain ⟨rest, hrest⟩ := List.head?_eq_some_iff.1 hmsg
    exact ⟨connection, rest, hlink, hrest⟩
  · cases h

end Member

namespace Member.Sound

theorem becomes (h : m.Sound past l opened key) (hsub : past ⊆ past') {c : Client} {draft : Draft}
    {g : List ClientMessage → List ClientMessage} {read : Nat}
    (hb : m.client.Becomes c draft g) (hkeeps : m.client.draft.Keeps draft)
    (hadvances : Advances m.client.presenceId past m.client.draft draft)
    (hstate : m.client.Lags → c.state ≠ .connected)
    (hlinked : ∀ connection, m.client.line? = some connection →
      Linked m.client.presenceId key past l m.socket m.client.state m.client.draft m.read
        connection.outgoing →
      Linked m.client.presenceId key past' l' m.socket c.state draft read (g connection.outgoing)) :
    Member.Sound past' l' opened key { m with client := c, read } := by
  refine ⟨?_, ?_, ?_, fun request hr => ?_, ?_⟩
  · exact hb.draft ▸ hkeeps.sessionKey.trans h.sessionKey
  · exact hb.draft ▸ hkeeps.numbered h.numbered
  · change c.draft.Known c.presenceId past'
    rw [hb.draft, hb.presenceId]
    exact (hadvances.known h.known).mono hsub
  · obtain ⟨hrequest, hlags⟩ := h.dialing request hr
    refine ⟨⟨hrequest.sessionKey, hrequest.presenceId.trans hb.presenceId.symm, ?_⟩,
      hb.lags hlags (hstate hlags)⟩
    exact hb.draft ▸ hadvances.reaches _ hrequest.reaches
  · change ∀ connection, c.line? = some connection →
      Attached (Linked c.presenceId key past' l') opened { m with client := c, read } connection
    rw [hb.presenceId]
    exact Attached.becomes h.attached hb hlinked

theorem proceeds (h : m.Sound past l opened key) {deed : Deed}
    (hp : Proceeds past past' deed l l') (hle : opened ≤ opened')
    (hdeed : m.socket < opened → ¬deed.Concerns key m.socket (l.seat key m.socket).stage) :
    m.Sound past' l' opened' key := by
  refine ⟨h.sessionKey, h.numbered, h.known.mono hp.sub, h.dialing, fun connection hl => ?_⟩
  have hatt := h.attached connection hl
  refine hatt.imp hle fun hlinked => hlinked.passes hp.sub ?_
  exact hp.passes key m.socket hlinked.attended (hdeed hatt.opened)

theorem pushes (h : m.Sound past l opened key) (mutations : List Mutation) :
    Member.Sound past l opened key { m with client := (m.client.push mutations).1 } := by
  obtain ⟨hb, hs⟩ := Client.becomes_push (Attached.writes h.attached) mutations
  refine h.becomes (fun _ hm => hm) hb ⟨rfl, id, fun hn => hn.push mutations⟩
    ⟨fun hk => hk.push mutations, fun _ hr => hr.push mutations⟩ (fun hlags => hs ▸ hlags.state)
    fun connection _ hlinked => ?_
  rw [hs]
  exact hlinked.imp fun _ hin => hin.push h.sessionKey mutations

theorem appears (h : m.Sound past l opened key) (content : Content) :
    Member.Sound past l opened key { m with client := (m.client.setPresence content).1 } := by
  obtain ⟨hb, hs⟩ := Client.becomes_setPresence (Attached.writes h.attached) content
  refine h.becomes (fun _ hm => hm) hb ?_ ?_ (fun hlags => hs ▸ hlags.state)
    fun connection _ hlinked => ?_
  · split
    · exact ⟨rfl, id, fun hn => hn.allot⟩
    · exact .refl _
  · split
    · exact ⟨fun hk hsynced => have ⟨m, hm, hb⟩ := hk hsynced
        ⟨m, hm, hb.clock, hb.unsettled, hb.settled⟩, fun _ hr => hr⟩
    · exact .refl ..
  · rw [hs]
    exact hlinked.imp fun _ hin => hin.publish h.sessionKey content

theorem pings (h : m.Sound past l opened key) :
    Member.Sound past l opened key { m with client := m.client.ping.1 } := by
  obtain ⟨hb, hs⟩ := Client.becomes_send (Attached.writes h.attached) .ping
  refine h.becomes (fun _ hm => hm) hb (.refl _) (.refl ..) (fun hlags => hs ▸ hlags.state)
    fun connection _ hlinked => ?_
  change Linked _ _ _ _ _ (m.client.send .ping).1.state _ _ _
  rw [hs]
  exact hlinked.imp fun _ hin => hin.ping

theorem losesTouch (h : m.Sound past l opened key) (i : Nat) :
    Member.Sound past l opened key { m with client := m.client.readEnd i } := by
  obtain ⟨hb, hs⟩ := m.client.becomes_readEnd i
  refine h.becomes (fun _ hm => hm) hb (.refl _) (.refl ..) (fun hlags => ?_)
    fun connection _ hlinked => ?_
  · exact hs.elim (fun hs => hs ▸ hlags.state) id
  · obtain hs | hs := hs
    · rw [hs]
      exact hlinked
    · exact hlinked.imp fun _ hin => hin.idle hs

theorem reads (h : m.Sound past l opened key) (hu : ∀ i connection batch,
      m.incoming? l = some (i, connection, .data batch) → m.client.draft.Untangled batch) :
    (m.reads l).Sound past l opened key := by
  rw [Member.reads]
  split
  · rename_i i connection msg hincoming
    obtain ⟨hlink, hmsg⟩ := incoming?_eq_some key hincoming
    obtain ⟨hopen, hi, hc⟩ := link?_eq_some key hlink
    have hl : m.client.line? = some connection := Client.line?_eq_some.2 ⟨i, hi, hc⟩
    obtain ⟨hb, hs⟩ := Client.becomes_fold (Attached.writes h.attached) hi connection msg
    have hstate : (∀ accepted, msg ≠ .connected accepted) →
        (m.client.fold i connection msg).state = m.client.state := fun hno =>
      hs.elim id fun ⟨⟨accepted, he⟩, _⟩ => absurd he (hno accepted)
    have hread : ∀ outgoing, InTouch m.client.presenceId key past l.room.moment
        (l.seat key m.socket) m.client.state m.client.draft m.read outgoing → _ :=
      fun outgoing hin => hin.reads hopen h.sessionKey h.numbered hmsg
        (fun batch he => hu i connection batch (he ▸ hincoming)) hstate
    obtain ⟨-, hadvances⟩ := hread _ ((h.attached connection hl).linked.inTouch hopen)
    refine h.becomes (fun _ hm => hm) hb (m.client.draft.keeps_fold msg) hadvances (fun hlags => ?_)
      fun connection _ hlinked => hlinked.imp fun _ hin => (hread _ hin).1
    -- The connection is older than the one that the client waits for.
    obtain hs | ⟨-, hgeneration⟩ := hs
    · exact hs ▸ hlags.state
    · exact absurd hgeneration (Nat.ne_of_lt (hlags.generation connection hl))
  · exact h

theorem dials (h : m.Sound past l opened key) : m.dials.Sound past l opened key := by
  refine ⟨h.sessionKey, h.numbered, h.known, fun request hr => ?_, fun connection hl => ?_⟩
  · obtain rfl := Option.some.inj hr
    refine ⟨⟨h.sessionKey, rfl, m.client.draft.reaches_lastKnownClock⟩, nofun,
      fun connection hl => ?_⟩
    exact Nat.lt_succ_of_le (h.attached connection hl).generation
  · obtain ⟨hwrites, hle, hopened, hlinked⟩ := h.attached connection hl
    exact ⟨hwrites, Nat.le_succ_of_le hle, hopened, hlinked.imp fun _ hin => hin.idle nofun⟩

theorem getsNowhere (h : m.Sound past l opened key) : m.getsNowhere.Sound past l opened key := by
  rw [Member.getsNowhere]
  split
  · refine ⟨h.sessionKey, h.numbered, h.known, nofun, fun connection hl => ?_⟩
    obtain ⟨hwrites, hle, hopened, hlinked⟩ := h.attached connection hl
    exact ⟨hwrites, hle, hopened, hlinked.imp fun _ hin => hin.idle nofun⟩
  · exact h

theorem hangsUp (h : m.Sound past l opened key) : m.hangsUp.Sound past l opened key :=
  ⟨h.sessionKey, h.numbered, h.known, nofun, nofun⟩

theorem getsThrough (h : m.Sound past l opened key) {request : ConnectRequest}
    (hr : m.dialing = some request) (hsub : past ⊆ past') (hatt : Attended past' l' key opened)
    (hseat : l'.seat key opened = ⟨[], false, some .waiting⟩) :
    (m.getsThrough request opened).Sound past' l' (opened + 1) key := by
  obtain ⟨hrequest, hlags⟩ := h.dialing request hr
  refine ⟨h.sessionKey, h.numbered, h.known.mono hsub, nofun, fun connection hl => ?_⟩
  obtain rfl := Option.some.inj ((m.client.line?_connectMade request).symm.trans hl)
  refine ⟨rfl, Nat.le_refl _, Nat.lt_succ_self _, hatt, fun _ => congrArg Seat.closed hseat,
    fun _ => ?_⟩
  change InTouch _ key past' _ (l'.seat key opened) _ _ 0 _
  rw [hseat]
  exact .waiting rfl (Nat.zero_le _) nofun hrequest rfl nofun hlags.state

theorem heard [Host σ] (h : m.Sound past l opened key) {i : Nat} {msg : ClientMessage}
    (hout : m.outgoing? l = some (i, msg)) {now : Nat} (hl' : l.heed key msg now = l') :
    Member.Sound (past ++ [l'.room.moment]) l' opened key
      { m with client := (m.client.write i).1 } := by
  obtain ⟨connection, rest, hlink, hrest⟩ := outgoing?_eq_some hout
  obtain ⟨hopen, hi, hc⟩ := link?_eq_some key hlink
  have hl : m.client.line? = some connection := Client.line?_eq_some.2 ⟨i, hi, hc⟩
  obtain ⟨hb, hs⟩ := Client.becomes_write (Attached.writes h.attached) hi hc hrest
  refine h.becomes (List.subset_append_left ..) hb (.refl _) (.refl ..)
    (fun hlags => hs ▸ hlags.state) fun connection' hline hlinked => ?_
  obtain rfl := Option.some.inj (hl.symm.trans hline)
  rw [hrest] at hlinked
  rw [hs, hrest]
  exact hlinked.heard hopen h.known now hl'

end Member.Sound

end RoomSync
