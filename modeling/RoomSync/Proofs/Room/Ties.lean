import RoomSync.Proofs.Room.Informed
import RoomSync.Proofs.Room.Journal
import RoomSync.Proofs.Room.Run

namespace RoomSync

open Table Room

/-- The socket of a session, and what may be done with it. -/
def Session.holding? (s : Session) : Option (SocketId × Standing) :=
  match s.state with
  | .awaitingConnect w => some (w.socket, .waiting)
  | .connected c => some (c.socket, .connected)
  | .awaitingRemoval _ => none

def Room.holding? (r : Room) (key : String) : Option (SocketId × Standing) :=
  (r.session? key).bind Session.holding?

inductive Tie where
  | fresh
  | held (key : String) (standing : Standing)
  /-- The session that had the socket is out of the room while its handshake is accepted. -/
  | lifted
  | closed
deriving DecidableEq

namespace Tie

def Logged (log : List Dealing) : Tie → Prop
  | .fresh => log = []
  | .held _ standing => Standing.waiting.after log = some standing
  | .lifted => Standing.waiting.after log = some .waiting
  | .closed => Standing.waiting.after log = some .closed

inductive Becomes : Tie → Tie → Prop
  | same (tie : Tie) : Becomes tie tie
  | connects (key : String) : Becomes (.held key .waiting) (.held key .connected)
  | ends (key : String) (standing : Standing) : Becomes (.held key standing) .closed

theorem Becomes.trans {tie tie' tie'' : Tie} (h : tie.Becomes tie') (h' : tie'.Becomes tie'') :
    tie.Becomes tie'' := by
  cases h with
  | same => exact h'
  | connects key =>
    cases h' with
    | same => exact .connects key
    | ends => exact .ends key .waiting
  | ends key standing =>
    cases h' with
    | same => exact .ends key standing

end Tie

namespace Session

theorem holding?_touch (s : Session) (now : Nat) : (s.touch now).holding? = s.holding? := by
  obtain ⟨presenceId, info, state⟩ := s
  cases state <;> rfl

theorem socket?_of_holding? {s : Session} {socket : SocketId} {standing : Standing}
    (h : s.holding? = some (socket, standing)) : s.socket? = some socket := by
  obtain ⟨presenceId, info, state⟩ := s
  cases state with
  | awaitingConnect w => exact congrArg (Option.map Prod.fst) h
  | connected c => exact congrArg (Option.map Prod.fst) h
  | awaitingRemoval since => cases h

theorem holding?_of_socket? {s : Session} {socket : SocketId} (h : s.socket? = some socket) :
    s.holding? = some (socket, .waiting) ∨ s.holding? = some (socket, .connected) := by
  obtain ⟨presenceId, info, state⟩ := s
  cases state with
  | awaitingConnect w => exact .inl (congrArg (Option.map (·, Standing.waiting)) h)
  | connected c => exact .inr (congrArg (Option.map (·, Standing.connected)) h)
  | awaitingRemoval since => cases h

theorem phase_of_socket? {s : Session} {socket : SocketId} (h : s.socket? = some socket) :
    s.phase = .awaitingConnect ∨ s.phase = .connected := by
  obtain ⟨presenceId, info, state⟩ := s
  cases state with
  | awaitingConnect w => exact .inl rfl
  | connected c => exact .inr rfl
  | awaitingRemoval since => cases h

end Session

namespace Room

theorem holding?_of_session {r : Room} {key : String} {s : Session} (h : r.session? key = some s) :
    r.holding? key = s.holding? := by
  rw [holding?, h, Option.bind_some]

theorem holding?_of_none {r : Room} {key : String} (h : r.session? key = none) :
    r.holding? key = none := by
  rw [holding?, h, Option.bind_none]

theorem holding?_seated (r : Room) (key k : String) (s : Session) :
    (r.seated key s).holding? k = if k = key then s.holding? else r.holding? k := by
  rw [holding?, session?_seated]
  split <;> rfl

theorem holding?_without (r : Room) (key k : String) :
    (r.without key).holding? k = if k = key then none else r.holding? k := by
  rw [holding?, session?_without]
  split <;> rfl

theorem holding?_of_sessions {r r' : Room} (h : r'.sessions = r.sessions) (key : String) :
    r'.holding? key = r.holding? key := by
  rw [holding?, holding?, session?, session?, h]

theorem holding?_modifySession (r : Room) (key k : String) {f : Session → Session}
    (hf : ∀ s, (f s).holding? = s.holding?) :
    (r.modifySession key f).holding? k = r.holding? k := by
  rw [holding?, holding?, session?_modifySession]
  split
  · cases r.session? k with
    | none => rfl
    | some s => exact hf s
  · rfl

theorem holding?_of_connected? {r : Room} {key : String} {c : Connected}
    (h : r.connected? key = some c) : r.holding? key = some (c.socket, .connected) := by
  obtain ⟨s, hs, hc⟩ := connected?_eq_some.1 h
  rw [holding?_of_session hs, Session.holding?, hc]

end Room

namespace LiveRoom

variable {σ : Type} {l l' l'' : LiveRoom (Journal σ)} {socket t : SocketId} {key : String} {tie : Tie}

/-- What a room and its books say of a socket. -/
structure Tied (l : LiveRoom (Journal σ)) (socket : SocketId) (tie : Tie) : Prop where
  holder : ∀ key standing, l.room.holding? key = some (socket, standing) ↔ tie = .held key standing
  logged : tie.Logged (l.host.dealings socket)

/-- What happens in a room lets a socket go on, and takes nothing back that was done with it. -/
def Tends (socket : SocketId) (l l' : LiveRoom (Journal σ)) : Prop :=
  ∀ tie, Tied l socket tie → ∃ tie', tie.Becomes tie' ∧ Tied l' socket tie' ∧
    l.host.dealings socket <+: l'.host.dealings socket

namespace Tends

theorem trans (h : Tends socket l l') (h' : Tends socket l' l'') : Tends socket l l'' := by
  intro tie ht
  obtain ⟨tie', hb, ht, hp⟩ := h tie ht
  obtain ⟨tie'', hb', ht', hp'⟩ := h' tie' ht
  exact ⟨tie'', hb.trans hb', ht', hp.trans hp'⟩

theorem of_same (hholding : ∀ k, l'.room.holding? k = l.room.holding? k)
    (hlog : l'.host.dealings socket = l.host.dealings socket) : Tends socket l l' := by
  refine fun tie ht => ⟨tie, .same tie, ⟨fun k standing => ?_, hlog ▸ ht.logged⟩, hlog ▸ List.prefix_refl _⟩
  rw [hholding]
  exact ht.holder k standing

theorem refl (l : LiveRoom (Journal σ)) : Tends socket l l := .of_same (fun _ => rfl) rfl

theorem of_vacated (hholding : ∀ k, l'.room.holding? k = if k = key then none else l.room.holding? k)
    (hheld : ∀ standing, l.room.holding? key = some (socket, standing) →
      ∃ more, l'.host.dealings socket = l.host.dealings socket ++ more ∧
        standing.after more = some .closed)
    (hother : (∀ standing, l.room.holding? key ≠ some (socket, standing)) →
      l'.host.dealings socket = l.host.dealings socket) : Tends socket l l' := by
  intro tie ht
  by_cases hk : ∃ standing, tie = .held key standing
  · obtain ⟨standing, rfl⟩ := hk
    obtain ⟨more, hlog, hmore⟩ := hheld standing ((ht.holder key standing).2 rfl)
    have hlogged : Standing.waiting.after (l.host.dealings socket) = some standing := ht.logged
    refine ⟨.closed, .ends key standing, ⟨fun k s => ?_, ?_⟩, hlog ▸ List.prefix_append ..⟩
    · rw [hholding]
      refine ⟨fun h => ?_, nofun⟩
      split at h
      · cases h
      · rename_i hne
        exact absurd (Tie.held.inj ((ht.holder k s).1 h)).1.symm hne
    · rw [Tie.Logged, hlog, Standing.after_append, hlogged]
      exact hmore
  · have hno : ∀ standing, l.room.holding? key ≠ some (socket, standing) :=
      fun standing h => hk ⟨standing, (ht.holder key standing).1 h⟩
    have hlog := hother hno
    refine ⟨tie, .same tie, ⟨fun k s => ?_, hlog ▸ ht.logged⟩, hlog ▸ List.prefix_refl _⟩
    rw [hholding, ← ht.holder]
    split
    · rename_i hkey
      exact ⟨nofun, fun h => absurd (hkey ▸ h) (hno s)⟩
    · rfl

theorem of_told (hholding : ∀ k, l'.room.holding? k = l.room.holding? k) {standing : Standing}
    (hkey : l.room.holding? key = some (t, standing)) {dealing : Dealing}
    (hnext : standing.next dealing = some standing)
    (hlog : l'.host.dealings socket = l.host.dealings socket ++ if t = socket then [dealing] else []) :
    Tends socket l l' := by
  by_cases hsocket : t = socket
  · subst hsocket
    rw [if_pos rfl] at hlog
    intro tie ht
    obtain rfl := (ht.holder key standing).1 hkey
    have hlogged : Standing.waiting.after (l.host.dealings t) = some standing := ht.logged
    refine ⟨_, .same _, ⟨fun k s => (hholding k).symm ▸ ht.holder k s, ?_⟩,
      hlog ▸ List.prefix_append ..⟩
    rw [Tie.Logged, hlog, Standing.after_append, hlogged]
    exact congrArg (Option.bind · some) hnext
  · rw [if_neg hsocket, List.append_nil] at hlog
    exact .of_same hholding hlog

end Tends

variable [Host σ] (l) (socket) (now : Nat)

theorem cancel_cases (key : String) (cause : CancelCause) :
    (∃ t, l.room.holding? key = some (t, .connected) ∧
        (∀ k, (l.cancel key cause now).room.holding? k =
          if k = key then none else l.room.holding? k) ∧
        (l.cancel key cause now).host = Host.close l.host t) ∨
      ((∀ t, l.room.holding? key ≠ some (t, .connected)) ∧
        (∀ k, (l.cancel key cause now).room.holding? k = l.room.holding? k) ∧
        (l.cancel key cause now).host = l.host) := by
  cases hs : l.room.session? key with
  | none =>
    have hnone : l.room.holding? key = none := Room.holding?_of_none hs
    rw [cancel_of_none l cause now hs, hnone]
    exact .inr ⟨nofun, fun _ => rfl, rfl⟩
  | some s =>
    have hkey := Room.holding?_of_session hs
    by_cases hc : ∃ c, s.state = .connected c
    · obtain ⟨c, hc⟩ := hc
      rw [cancel_of_connected l cause now hs hc]
      exact .inl ⟨c.socket, by rw [hkey, Session.holding?, hc],
        fun k => l.room.holding?_seated key k _, rfl⟩
    · rw [cancel_of_not_connected l cause now hs fun c h => hc ⟨c, h⟩]
      refine .inr ⟨fun t ht => ?_, fun k => ?_, rfl⟩
      · rw [hkey, Session.holding?] at ht
        split at ht
        · cases ht
        · rename_i c hstate
          exact hc ⟨c, hstate⟩
        · cases ht
      · refine (l.room.holding?_seated key k s).trans ?_
        split
        · rename_i hk
          rw [hk, hkey]
        · rfl

theorem tends_cancel (key : String) (cause : CancelCause) :
    Tends socket l (l.cancel key cause now) := by
  obtain ⟨t, hkey, hholding, hhost⟩ | ⟨-, hholding, hhost⟩ := l.cancel_cases now key cause
  · refine .of_vacated hholding (fun standing hs => ?_) fun hno => ?_
    · obtain ⟨rfl, rfl⟩ := Prod.mk.inj (Option.some.inj (hkey.symm.trans hs))
      exact ⟨[.closed], by rw [hhost, Journal.dealings_close, if_pos rfl], rfl⟩
    · have hne : t ≠ socket := fun he => hno _ (he ▸ hkey)
      rw [hhost, Journal.dealings_close, if_neg hne, List.append_nil]
  · exact .of_same hholding (by rw [hhost])

theorem tends_sendFrame {standing : Standing} (hkey : l.room.holding? key = some (t, standing))
    {msg : ServerMessage} (hmsg : standing.tell msg = some standing) :
    Tends socket l (l.sendFrame key t msg now) := by
  have hlog := l.host.dealings_send t socket msg
  obtain ⟨hnone, he⟩ | ⟨herror, cause, he⟩ := l.sendFrame_cases now t msg
  · rw [if_pos hnone] at hlog
    have hnext : standing.next (.took msg) = some standing := hmsg
    rw [he]
    exact .of_told (fun _ => rfl) hkey hnext hlog
  · rw [if_neg herror] at hlog
    have hrefused : standing.next (.refused msg) =
        some (if standing = .waiting then standing else .spent) := by
      rw [Standing.next, hmsg, Option.map_some]
    rw [he]
    obtain ⟨t', hkey', hholding, hhost⟩ | ⟨hno, hholding, hhost⟩ :=
      cancel_cases ⟨l.room, (Host.send l.host t msg).1⟩ now key cause
    · obtain ⟨rfl, rfl⟩ := Prod.mk.inj (Option.some.inj (hkey.symm.trans hkey'))
      have hlog' := (Host.send l.host t msg).1.dealings_close t socket
      rw [hlog, ← hhost, List.append_assoc] at hlog'
      refine .of_vacated hholding (fun standing hs => ?_) fun hother => ?_
      · obtain ⟨rfl, rfl⟩ := Prod.mk.inj (Option.some.inj (hkey.symm.trans hs))
        exact ⟨[.refused msg, .closed], by simpa using hlog', congrArg (Option.bind · _) hrefused⟩
      · have hne : t ≠ socket := fun h => hother _ (h ▸ hkey)
        simpa [hne] using hlog'
    · have hwaiting : standing = .waiting := by
        cases standing with
        | waiting => rfl
        | connected => exact absurd hkey (hno t)
        | spent | closed => cases hmsg
      rw [if_pos hwaiting] at hrefused
      exact .of_told hholding hkey hrefused (by rw [hhost, hlog])

omit [Host σ] in
theorem holding?_setOutbox (key : String) (outbox : Outbox) (k : String) :
    (l.setOutbox key outbox).room.holding? k = l.room.holding? k := by
  refine l.room.holding?_modifySession key k fun s => ?_
  obtain ⟨presenceId, info, state⟩ := s
  cases state <;> rfl

theorem tends_sendData (key : String) (msg : DataMessage) :
    Tends socket l (l.sendData key msg now) := by
  rw [sendData]
  cases hc : l.room.connected? key with
  | none => exact .refl l
  | some c =>
    let o := c.outbox.enqueue msg now l.room.config
    have hset : Tends socket l (l.setOutbox key o.1) := .of_same (l.holding?_setOutbox key o.1) rfl
    have hkey := (l.holding?_setOutbox key o.1 key).trans (holding?_of_connected? hc)
    dsimp only
    split
    · exact hset.trans (tends_sendFrame _ socket now hkey rfl)
    · exact hset
    · exact hset.trans (tends_cancel _ socket now key _)

theorem tends_sendPatch (changes : Changes) (key : String) :
    Tends socket l (sendPatch changes now l key) := by
  rw [sendPatch]
  cases l.room.connected? key with
  | none => exact .refl l
  | some c => exact l.tends_sendData socket now key _

theorem tends_broadcast (changes : Changes) (except : Option String) :
    Tends socket l (l.broadcast changes except now) :=
  l.foldl_related .refl .trans (fun l => l.tends_sendPatch socket now changes) _

theorem tends_dropPresence? (id? : Option RecordId) : Tends socket l (l.dropPresence? id? now) := by
  cases id? with
  | none => exact .refl l
  | some id =>
    rw [dropPresence?, dropPresence]
    split
    · let dropped : LiveRoom (Journal σ) := ⟨{ l.room with
        presence := l.room.presence.erase id
        store := l.room.store.advance }, l.host⟩
      have hdropped : Tends socket l dropped := .of_same (fun _ => rfl) rfl
      exact hdropped.trans (dropped.tends_broadcast socket now _ none)
    · exact .refl l

theorem tends_flushSession (key : String) : Tends socket l (flushSession now l key) := by
  rw [flushSession]
  cases hc : l.room.connected? key with
  | none => exact .refl l
  | some c =>
    let o := c.outbox.flushDue now l.room.config.debounce
    have hset : Tends socket l (l.setOutbox key o.1) := .of_same (l.holding?_setOutbox key o.1) rfl
    have hkey := (l.holding?_setOutbox key o.1 key).trans (holding?_of_connected? hc)
    dsimp only
    split
    · exact hset
    · exact hset.trans (tends_sendFrame _ socket now hkey rfl)

theorem tends_pong (key : String) : Tends socket l (l.pong key now) := by
  rw [pong]
  split
  · rename_i t ht
    obtain ⟨s, hs, ht⟩ := Option.bind_eq_some_iff.1 ht
    have hkey := Room.holding?_of_session hs
    obtain hw | hc := s.holding?_of_socket? ht
    · exact l.tends_sendFrame socket now (hkey.trans hw) rfl
    · exact l.tends_sendFrame socket now (hkey.trans hc) rfl
  · exact .refl l

variable {s : Session} {standing : Standing} {msg : ServerMessage}

theorem dealings_left (key : String) (s : Session) :
    (l.left key s).host.dealings socket = l.host.dealings socket ++
      if s.socket? = some socket then [.closed] else [] := by
  rw [left]
  cases hs : s.socket? with
  | none => exact (List.append_nil _).symm
  | some t =>
    refine (l.host.dealings_close t socket).trans ?_
    simp

theorem Tends.of_left {l' : LiveRoom (Journal σ)} (hs : l.room.session? key = some s)
    (hroom : l'.room = l.room) {last : List Dealing}
    (hlog : l'.host.dealings socket = l.host.dealings socket ++
      if s.socket? = some socket then last else [])
    (hlast : ∀ standing, s.holding? = some (socket, standing) →
      standing.after (last ++ [.closed]) = some .closed) :
    Tends socket l (l'.left key s) := by
  have hkey := Room.holding?_of_session hs
  have hleft := l'.dealings_left socket key s
  have hholding : ∀ k, (l'.left key s).room.holding? k = if k = key then none else l.room.holding? k := by
    intro k
    rw [room_left, hroom]
    exact l.room.holding?_without key k
  rw [hlog] at hleft
  refine .of_vacated hholding (fun standing hheld => ?_) fun hother => ?_
  · rw [hkey] at hheld
    rw [if_pos (Session.socket?_of_holding? hheld), if_pos (Session.socket?_of_holding? hheld),
      List.append_assoc] at hleft
    exact ⟨_, hleft, hlast standing hheld⟩
  · have hne : s.socket? ≠ some socket := fun h => by
      obtain h | h := Session.holding?_of_socket? h <;> exact hother _ (hkey.trans h)
    rw [hleft, if_neg hne, if_neg hne, List.append_nil, List.append_nil]

theorem tends_left (hs : l.room.session? key = some s) : Tends socket l (l.left key s) := by
  have hlog : l.host.dealings socket = l.host.dealings socket ++
      if s.socket? = some socket then [] else [] := by simp
  refine .of_left l socket hs rfl hlog fun standing hheld => ?_
  obtain h | h := Session.holding?_of_socket? (Session.socket?_of_holding? hheld)
  all_goals
    obtain ⟨-, rfl⟩ := Prod.mk.inj (Option.some.inj (h.symm.trans hheld))
    rfl

theorem tends_remove (key : String) (cause : RemovalCause) :
    Tends socket l (l.remove key cause now) := by
  cases hs : l.room.session? key with
  | none =>
    rw [remove, hs]
    exact .refl l
  | some s =>
    rw [remove_eq hs]
    have hdropped := (l.left key s).tends_dropPresence? socket now s.presenceId
    exact ((l.tends_left socket hs).trans hdropped).trans (.of_same (fun _ => rfl) rfl)

theorem tends_dismiss (hs : l.room.session? key = some s) (hheld : s.holding? = some (t, standing))
    (hmsg : standing.tell msg = some .spent) (cause : RemovalCause) :
    Tends socket l ((l.tell t msg).remove key cause now) := by
  have hs' : (l.tell t msg).room.session? key = some s := hs
  have hsocket := Session.socket?_of_holding? hheld
  have hlog : (l.tell t msg).host.dealings socket = l.host.dealings socket ++
      if s.socket? = some socket then
        [if (Host.send l.host t msg).2 = none then .took msg else .refused msg] else [] := by
    simp only [hsocket, Option.some.injEq]
    exact l.host.dealings_send t socket msg
  have hleft : Tends socket l ((l.tell t msg).left key s) := by
    refine .of_left l socket hs rfl hlog fun s' hs' => ?_
    obtain ⟨rfl, rfl⟩ := Prod.mk.inj (Option.some.inj (hheld.symm.trans hs'))
    split
    · exact congrArg (Option.bind · _) hmsg
    · have hrefused : standing.next (.refused msg) = some .spent := by
        rw [Standing.next, hmsg]
        rfl
      exact congrArg (Option.bind · _) hrefused
  rw [remove_eq hs']
  have hdropped := ((l.tell t msg).left key s).tends_dropPresence? socket now s.presenceId
  exact (hleft.trans hdropped).trans (.of_same (fun _ => rfl) rfl)

theorem tends_terminate (key : String) (error : ProtocolError) :
    Tends socket l (l.terminate key error now) := by
  rw [terminate]
  split
  · exact .refl l
  · rename_i t ht
    obtain ⟨s, hs, ht⟩ := Option.bind_eq_some_iff.1 ht
    obtain hheld | hheld := Session.holding?_of_socket? ht
    · exact l.tends_dismiss socket now hs hheld rfl _
    · exact l.tends_dismiss socket now hs hheld rfl _

theorem upkeep_tends : Upkeep now (@Tends σ socket) where
  refl := .refl
  trans := .trans
  note _ _ _ _ := .of_same (fun _ => rfl) rfl
  cancel l := l.tends_cancel socket now
  remove l := l.tends_remove socket now
  flush l := l.tends_flushSession socket now

theorem tends_serve (key : String) (own : Option RecordId) (push : Push) :
    Tends socket l (l.serve key own push now) := by
  have happlied : Tends socket l ⟨(l.room.applyPush own push).1, l.host⟩ :=
    .of_same (holding?_of_sessions (l.room.applyPush_frame own push).2) rfl
  have hanswered := happlied.trans
    (tends_sendData _ socket now key (.pushResult (l.room.answer own push)))
  rw [serve]
  split
  · exact hanswered
  · exact hanswered.trans (tends_broadcast _ socket now _ _)

omit [Host σ] in
theorem tends_touch (key : String) :
    Tends socket l { l with room := l.room.modifySession key (·.touch now) } :=
  .of_same (fun k => l.room.holding?_modifySession key k fun s => s.holding?_touch now) rfl

theorem tends_receivePush (key : String) (push : Push) :
    Tends socket l (l.receivePush key push now).1 := by
  obtain ⟨_, -, he⟩ | ⟨s, hs, hc, hkey⟩ := l.receivePush_cases now key push
  · rw [he]
    exact .refl l
  · rw [l.receivePush_of_connected now hs hc hkey]
    exact (l.tends_touch socket now key).trans (tends_serve _ socket now key _ push)

end LiveRoom

end RoomSync
