import RoomSync.Proofs.Room.Observer
import RoomSync.Proofs.Room.Ties

namespace RoomSync

open Table Room

namespace LiveRoom

variable {σ : Type} [Host σ] (l : LiveRoom (Journal σ)) (socket : SocketId) (now : Nat)
  {key : String} {s : Session} {t : SocketId} {standing : Standing} {msg : ServerMessage}

omit [Host σ] in
theorem Tied.seat {l l' : LiveRoom (Journal σ)} {tie : Tie} (ht : Tied l socket tie)
    (hfree : ∀ k s, tie ≠ .held k s)
    (hholding : ∀ k, l'.room.holding? k =
      if k = key then some (socket, standing) else l.room.holding? k)
    (hlogged : (Tie.held key standing).Logged (l'.host.dealings socket)) :
    Tied l' socket (.held key standing) := by
  refine ⟨fun k s => ?_, hlogged⟩
  rw [hholding]
  split
  · rename_i hk
    simp [hk]
  · rename_i hk
    refine ⟨fun h => absurd ((ht.holder k s).1 h) (hfree k s), fun h => ?_⟩
    exact absurd (Tie.held.inj h).1.symm hk

omit [Host σ] in
theorem Tied.seat_other {l l' : LiveRoom (Journal σ)} {tie : Tie} (ht : Tied l socket tie)
    (hnone : l.room.holding? key = none)
    (hholding : ∀ k, l'.room.holding? k = if k = key then some (t, standing) else l.room.holding? k)
    (hlog : l'.host.dealings socket = l.host.dealings socket) (hne : t ≠ socket) :
    Tied l' socket tie := by
  refine ⟨fun k s => ?_, hlog ▸ ht.logged⟩
  rw [← ht.holder, hholding]
  split
  · rename_i hk
    rw [hk, hnone]
    simp [hne]
  · rfl

theorem welcome_cases (key : String) (s : Session) (waiting : Waiting) (request : ConnectRequest) :
    ((∀ k, (l.welcome key s waiting request now).room.holding? k =
          if k = key then some (waiting.socket, .connected) else l.room.holding? k) ∧
        (l.welcome key s waiting request now).host.dealings socket =
          l.host.dealings socket ++ if waiting.socket = socket then
            [.took (.connected (l.offer waiting request))] else []) ∨
      ((∀ k, (l.welcome key s waiting request now).room.holding? k =
          if k = key then none else l.room.holding? k) ∧
        (l.welcome key s waiting request now).host.dealings socket =
          l.host.dealings socket ++ if waiting.socket = socket then
            [.refused (.connected (l.offer waiting request)), .closed] else []) := by
  let l' : LiveRoom (Journal σ) :=
    ⟨(l.room.seated key (l.guest s waiting request now)).note (.connected key waiting.resume.isSome),
      l.host⟩
  let sent := Host.send l.host waiting.socket (.connected (l.offer waiting request))
  have hseated : ∀ k, l'.room.holding? k =
      if k = key then some (waiting.socket, .connected) else l.room.holding? k :=
    fun k => l.room.holding?_seated key k (l.guest s waiting request now)
  have hlog := l.host.dealings_send waiting.socket socket (.connected (l.offer waiting request))
  obtain ⟨hnone, he⟩ | ⟨herror, cause, he⟩ :=
    l'.sendFrame_cases now waiting.socket (.connected (l.offer waiting request))
  · refine .inl ⟨fun k => ?_, ?_⟩
    · rw [welcome, he]
      exact hseated k
    · rw [if_pos hnone] at hlog
      rw [welcome, he]
      exact hlog
  · have hkey := (hseated key).trans (if_pos rfl)
    obtain ⟨t, hkey', hholding, hhost⟩ | ⟨hno, -, -⟩ :=
      cancel_cases ⟨l'.room, sent.1⟩ now key cause
    · obtain ⟨rfl, -⟩ := Prod.mk.inj (Option.some.inj (hkey.symm.trans hkey'))
      refine .inr ⟨fun k => ?_, ?_⟩
      · rw [welcome, he, hholding]
        by_cases hk : k = key
        · rw [if_pos hk, if_pos hk]
        · rw [if_neg hk, if_neg hk]
          exact (hseated k).trans (if_neg hk)
      · rw [if_neg herror] at hlog
        have hclosed := sent.1.dealings_close waiting.socket socket
        rw [hlog, ← hhost] at hclosed
        rw [welcome, he, hclosed]
        split <;> simp
    · exact absurd hkey (hno waiting.socket)

theorem tends_accept {waiting : Waiting} (hs : l.room.session? key = some s)
    (hw : s.state = .awaitingConnect waiting) (request : ConnectRequest) :
    Tends socket l (l.accept key s waiting request now).1 := by
  let l₁ := l.readied key s request now
  let id? := s.presenceId.filter fun old => old ≠ request.presenceId
  have hkey : l.room.holding? key = some (waiting.socket, .waiting) := by
    rw [Room.holding?_of_session hs, Session.holding?, hw]
  have hforgotten : ∀ k, (l.forget key).room.holding? k =
      if k = key then none else l.room.holding? k := l.room.holding?_without key
  have hnone : l₁.room.holding? key = none := by
    have hsteady := (l.forget key).steady_dropPresence? id? now
    rw [Room.holding?, Option.bind_eq_none_iff]
    intro s' hs'
    obtain ⟨s, hs, -⟩ := hsteady.sessions key s' hs'
    rw [session?_dropped] at hs
    cases ((l.room.session?_without key key).trans (if_pos rfl)).symm.trans hs
  rw [accept_eq]
  intro tie ht
  by_cases hsocket : waiting.socket = socket
  · subst hsocket
    obtain rfl := (ht.holder key _).1 hkey
    have hlifted : Tied (l.forget key) waiting.socket .lifted := by
      refine ⟨fun k s => ?_, ht.logged⟩
      rw [hforgotten]
      split
      · simp
      · rename_i hk
        refine iff_of_false (fun h => hk ?_) (by simp)
        exact (Tie.held.inj ((ht.holder k s).1 h)).1.symm
    obtain ⟨_, hb, hlifted, hgrows⟩ :=
      (l.forget key).tends_dropPresence? waiting.socket now id? _ hlifted
    cases hb
    have hlogged : Standing.waiting.after (l₁.host.dealings waiting.socket) = some .waiting :=
      hlifted.logged
    obtain ⟨hholding, hlog⟩ | ⟨hholding, hlog⟩ :=
      l₁.welcome_cases waiting.socket now key s waiting request
    · rw [if_pos rfl] at hlog
      refine ⟨.held key .connected, .connects key, hlifted.seat _ (by simp) hholding ?_,
        hgrows.trans (hlog ▸ List.prefix_append ..)⟩
      rw [Tie.Logged, hlog, Standing.after_append, hlogged]
      rfl
    · rw [if_pos rfl] at hlog
      refine ⟨.closed, .ends key .waiting, ⟨fun k s => ?_, ?_⟩,
        hgrows.trans (hlog ▸ List.prefix_append ..)⟩
      · rw [hholding]
        split
        · simp
        · refine iff_of_false (fun h => ?_) (by simp)
          cases (hlifted.holder k s).1 h
      · rw [Tie.Logged, hlog, Standing.after_append, hlogged]
        rfl
  · have hother : Tends socket l (l.forget key) :=
      .of_vacated hforgotten
        (fun standing h => absurd (Prod.mk.inj (Option.some.inj (hkey.symm.trans h))).1 hsocket)
        fun _ => rfl
    obtain ⟨tie', hb, ht, hgrows⟩ :=
      (hother.trans ((l.forget key).tends_dropPresence? socket now id?)) tie ht
    obtain ⟨hholding, hlog⟩ | ⟨hholding, hlog⟩ := l₁.welcome_cases socket now key s waiting request
    · rw [if_neg hsocket, List.append_nil] at hlog
      exact ⟨tie', hb, ht.seat_other _ hnone hholding hlog hsocket, hlog ▸ hgrows⟩
    · rw [if_neg hsocket, List.append_nil] at hlog
      have hsame : ∀ k, (l₁.welcome key s waiting request now).room.holding? k =
          l₁.room.holding? k := by
        intro k
        rw [hholding]
        split
        · rename_i hk
          rw [hk, hnone]
        · rfl
      obtain ⟨tie'', hb', ht', hgrows'⟩ := Tends.of_same hsame hlog tie' ht
      exact ⟨tie'', hb.trans hb', ht', hgrows.trans hgrows'⟩

theorem tends_connect (key : String) (request : ConnectRequest) :
    Tends socket l (l.connect key request now).1 := by
  obtain ⟨_, -, he⟩ | ⟨s, waiting, msg, cause, _, hs, hw, hm, -, he⟩ | ⟨s, waiting, ha⟩ :=
    l.connect_cases now key request
  · rw [he]
    exact .refl l
  · have hheld : s.holding? = some (waiting.socket, .waiting) := by rw [Session.holding?, hw]
    have hspent : Standing.waiting.tell msg = some .spent := by
      cases msg with
      | rejectConnect _ | error _ => rfl
      | connected _ | data _ | pong => cases hm
    rw [he]
    exact l.tends_dismiss socket now hs hheld hspent cause
  · rw [ha.connect]
    exact l.tends_accept socket now ha.session ha.state request

theorem tends_concluded (key : String) (result : Except RoomError Unit) :
    Tends socket l (concluded now key (l, result)) := by
  unfold concluded
  split
  · rename_i h
    obtain ⟨rfl, -⟩ := Prod.mk.inj h
    exact tends_terminate _ socket now key _
  · rename_i h
    obtain ⟨rfl, -⟩ := Prod.mk.inj h
    exact .refl _

theorem tends_hear (key : String) (msg : ClientMessage) :
    Tends socket l (l.hear key msg now).1 := by
  rw [hear_eq]
  refine (l.tends_touch socket now key).trans ?_
  generalize ({ l with room := l.room.modifySession key (·.touch now) } : LiveRoom (Journal σ)) = l₁
  cases msg with
  | connect request =>
    exact (l₁.tends_connect socket now key request).trans (tends_concluded _ socket now key _)
  | push push =>
    exact (l₁.tends_receivePush socket now key push).trans (tends_concluded _ socket now key _)
  | ping => exact (l₁.tends_pong socket now key).trans (tends_concluded _ socket now key _)

theorem tends_receive (key : String) (frame : Wire.Bytes) :
    Tends socket l (l.receive key frame now).1 := by
  rw [receive]
  split
  · exact .refl l
  · split
    · exact .refl l
    · split
      · exact l.tends_terminate socket now key _
      · exact l.tends_hear socket now key _

theorem succeed_cases (key : String) (t : SocketId) (info : Content) :
    (∀ k, (l.succeed key t info now).room.holding? k =
        if k = key then some (t, .waiting) else l.room.holding? k) ∧
      Tends socket l ⟨l.room.without key, (l.succeed key t info now).host⟩ := by
  cases hs : l.room.session? key with
  | none =>
    rw [succeed_of_none hs]
    refine ⟨fun k => l.room.holding?_seated key k _, .of_same (fun k => ?_) rfl⟩
    refine (l.room.holding?_without key k).trans ?_
    split
    · rename_i hk
      rw [hk, Room.holding?_of_none hs]
    · rfl
  | some old =>
    obtain ⟨info', he⟩ := succeed_of_some hs t info now
    have hleft := l.tends_left socket hs
    rw [he]
    refine ⟨fun k => l.room.holding?_seated key k _, ?_⟩
    rw [← l.room_left key old]
    exact hleft

theorem Tied.openSocket {l : LiveRoom (Journal σ)} {tie : Tie} (ht : Tied l socket tie)
    (hfresh : t = socket → tie = .fresh) (key : String) (info : Content) :
    ∃ tie', (t = socket → tie' = .held key .waiting) ∧ (t ≠ socket → tie.Becomes tie') ∧
      Tied (l.openSocket key t info now) socket tie' ∧
      l.host.dealings socket <+: (l.openSocket key t info now).host.dealings socket := by
  let l₁ := l.expire key now
  obtain ⟨hholding, htends⟩ := l₁.succeed_cases socket now key t info
  obtain ⟨tie', hb, ht, hgrows⟩ := (((upkeep_tends socket now).expire l key).trans htends) tie ht
  have hwithout := l₁.room.holding?_without key
  have hseated : ∀ k, (l₁.succeed key t info now).room.holding? k =
      if k = key then some (t, .waiting) else (l₁.room.without key).holding? k := by
    intro k
    rw [hholding, hwithout]
    split <;> rfl
  rw [openSocket_eq]
  by_cases hsocket : t = socket
  · subst hsocket
    obtain rfl := hfresh rfl
    cases hb
    have hlog : (l₁.succeed key t info now).host.dealings t = [] := ht.logged
    refine ⟨_, fun _ => rfl, fun h => absurd rfl h, ht.seat _ nofun hseated ?_, hgrows⟩
    rw [Tie.Logged, hlog]
    rfl
  · refine ⟨tie', fun h => absurd h hsocket, fun _ => hb, ?_, hgrows⟩
    exact ht.seat_other _ ((hwithout key).trans (if_pos rfl)) hseated rfl hsocket

theorem Tied.perform {l : LiveRoom (Journal σ)} {tie : Tie} (ht : Tied l socket tie) {call : Call}
    (hfresh : call.operation.deed.opened? = some socket → tie = .fresh) :
    ∃ tie', (call.operation.deed.opened? = some socket → ∃ key, tie' = .held key .waiting) ∧
      (call.operation.deed.opened? ≠ some socket → tie.Becomes tie') ∧
      Tied (l.perform call) socket tie' ∧
      l.host.dealings socket <+: (l.perform call).host.dealings socket := by
  have hgoes : call.operation.deed.opened? = none → Tends socket l (l.perform call) →
      ∃ tie', (call.operation.deed.opened? = some socket → ∃ key, tie' = .held key .waiting) ∧
        (call.operation.deed.opened? ≠ some socket → tie.Becomes tie') ∧
        Tied (l.perform call) socket tie' ∧
        l.host.dealings socket <+: (l.perform call).host.dealings socket := by
    intro hnone htends
    obtain ⟨tie', hb, h⟩ := htends tie ht
    exact ⟨tie', fun h => (nomatch hnone.symm.trans h), fun _ => hb, h⟩
  obtain ⟨now, operation⟩ := call
  cases operation with
  | openSocket key t info =>
    obtain ⟨tie', hopens, hb, h⟩ :=
      ht.openSocket socket now (fun h => hfresh (congrArg some h)) key info
    exact ⟨tie', fun h => ⟨key, hopens (Option.some.inj h)⟩, fun h => hb fun he => h (congrArg some he),
      h⟩
  | receive key frame =>
    refine hgoes ?_ (l.tends_receive socket now key frame)
    rw [Operation.deed]
    rcases (ClientMessage.decode frame).toOption with _ | _ | _ | _ <;> rfl
  | connect key request => exact hgoes rfl (l.tends_connect socket now key request)
  | push key push => exact hgoes rfl (l.tends_receivePush socket now key push)
  | socketClosed key t => exact hgoes rfl ((upkeep_tends socket now).socketClosed l key t)
  | tick => exact hgoes rfl ((upkeep_tends socket now).tick l)
  | kick key => exact hgoes rfl ((upkeep_tends socket now).kick l key)
  | takeEvents => exact hgoes rfl ((upkeep_tends socket now).takeEvents l)

/-- The ties of a socket that is opened at most once, over a whole run. -/
theorem Tied.run {l : LiveRoom (Journal σ)} {tie : Tie} (ht : Tied l socket tie) {calls : List Call}
    (hnodup : (opened calls).Nodup) (hfresh : socket ∈ opened calls → tie = .fresh) :
    ∃ tie', (socket ∈ opened calls → tie' ≠ .fresh ∧ tie' ≠ .lifted) ∧
      (socket ∉ opened calls → tie.Becomes tie') ∧ Tied (l.run calls) socket tie' ∧
      l.host.dealings socket <+: (l.run calls).host.dealings socket := by
  induction calls generalizing l tie with
  | nil => exact ⟨tie, by simp [opened], fun _ => .same tie, ht, List.prefix_refl _⟩
  | cons call rest ih =>
    rw [opened_cons, List.nodup_append] at hnodup
    rw [opened_cons, List.mem_append, Option.mem_toList] at hfresh
    obtain ⟨-, hnodup, hdisjoint⟩ := hnodup
    obtain ⟨tie₁, hopens, hgoes, ht₁, hgrows⟩ := ht.perform socket fun h => hfresh (.inl h)
    by_cases hcall : call.operation.deed.opened? = some socket
    · have hrest : socket ∉ opened rest := fun hmem =>
        hdisjoint socket (Option.mem_toList.2 hcall) socket hmem rfl
      obtain ⟨key, rfl⟩ := hopens hcall
      obtain ⟨tie', -, hb, ht', hgrows'⟩ := ih ht₁ hnodup fun h => absurd h hrest
      refine ⟨tie', fun _ => ?_, fun hno => absurd ?_ hno, ht', hgrows.trans hgrows'⟩
      · cases hb hrest with
        | same | connects | ends => simp
      · rw [opened_cons]
        exact List.mem_append_left _ (Option.mem_toList.2 hcall)
    · obtain ⟨tie', hmem, hb, ht', hgrows'⟩ := ih ht₁ hnodup fun h => by
        obtain rfl := hfresh (.inr h)
        cases hgoes hcall
        rfl
      refine ⟨tie', fun h => hmem ?_, fun hno => (hgoes hcall).trans (hb fun h => hno ?_), ht',
        hgrows.trans hgrows'⟩
      · rw [opened_cons, List.mem_append, Option.mem_toList] at h
        exact h.resolve_left hcall
      · rw [opened_cons]
        exact List.mem_append_right _ h

omit [Host σ] in
theorem Tied.standing_cases {l : LiveRoom (Journal σ)} (h : Tied l socket (.held key standing)) :
    standing = .waiting ∨ standing = .connected := by
  obtain ⟨s, -, hs⟩ := Option.bind_eq_some_iff.1 ((h.holder key standing).2 rfl)
  refine (Session.holding?_of_socket? (Session.socket?_of_holding? hs)).imp (fun he => ?_) fun he => ?_
  · exact (Prod.mk.inj (Option.some.inj (hs.symm.trans he))).2
  · exact (Prod.mk.inj (Option.some.inj (hs.symm.trans he))).2

omit [Host σ] in
theorem Tied.regular {l : LiveRoom (Journal σ)} {tie : Tie} (h : Tied l socket tie) :
    Regular (l.host.dealings socket) := by
  cases tie with
  | fresh =>
    have hlog : l.host.dealings socket = [] := h.logged
    rw [hlog]
    exact Standing.regular_after (rfl : Standing.waiting.after [] = some .waiting) nofun
  | held key standing =>
    refine Standing.regular_after h.logged ?_
    obtain rfl | rfl := h.standing_cases <;> exact nofun
  | lifted => exact Standing.regular_after h.logged nofun
  | closed => exact Standing.regular_after h.logged nofun

omit [Host σ] in
theorem Tied.of_session {l : LiveRoom (Journal σ)} {tie : Tie} (h : Tied l socket tie)
    (hs : l.room.session? key = some s) (hsocket : s.socket? = some socket) :
    ∃ standing, tie = .held key standing := by
  have hkey := Room.holding?_of_session hs
  obtain he | he := Session.holding?_of_socket? hsocket
  · exact ⟨_, (h.holder key _).1 (hkey.trans he)⟩
  · exact ⟨_, (h.holder key _).1 (hkey.trans he)⟩

omit [Host σ] in
theorem tied_fresh (config : Config) (store : Store) (host : σ) :
    Tied ⟨.withStore config store, .start host⟩ socket .fresh := by
  refine ⟨fun k s => ⟨fun h => ?_, nofun⟩, rfl⟩
  obtain ⟨_, hs, -⟩ := Option.bind_eq_some_iff.1 h
  cases hs

omit [Host σ] in
theorem Tied.dealings_eq {l l' : LiveRoom (Journal σ)} (h : Tied l socket .closed) {tie : Tie}
    (h' : Tied l' socket tie) (hgrows : l.host.dealings socket <+: l'.host.dealings socket) :
    l'.host.dealings socket = l.host.dealings socket := by
  obtain ⟨more, hmore⟩ := hgrows
  have hclosed := (Standing.mem_closed_iff h.logged nofun).2 rfl
  obtain ⟨before, after, hlog⟩ := List.append_of_mem hclosed
  have hover := h'.regular.ended before (after ++ more) (by rw [← hmore, hlog]; simp)
  rw [← hmore, (List.append_eq_nil_iff.1 hover).2, List.append_nil]

theorem Tied.followed {start : LiveRoom (Journal σ)} (hstart : Tied start socket .fresh)
    {before after : List Call} (hnodup : (opened (before ++ after)).Nodup)
    (hs : (start.run before).room.session? key = some s) (hsocket : s.socket? = some socket) :
    socket ∉ opened after ∧ ∃ standing tie, Tied (start.run before) socket (.held key standing) ∧
      (Tie.held key standing).Becomes tie ∧ Tied (start.run (before ++ after)) socket tie := by
  rw [opened_append, List.nodup_append] at hnodup
  obtain ⟨hbefore, hafter, hdisjoint⟩ := hnodup
  obtain ⟨tie, -, hclosed, ht, -⟩ := hstart.run socket hbefore fun _ => rfl
  obtain ⟨standing, rfl⟩ := ht.of_session socket hs hsocket
  have hno : socket ∉ opened after := fun hmem => by
    refine hdisjoint socket (Decidable.byContradiction fun hno => ?_) socket hmem rfl
    cases hclosed hno
  obtain ⟨tie', -, hb, ht', -⟩ := ht.run socket hafter fun hmem => absurd hmem hno
  rw [run_append]
  exact ⟨hno, standing, tie', ht, hb hno, ht'⟩

end LiveRoom

/-- As long as no socket is opened twice, all that is done with a socket is regular. The socket of a
session for which another one is opened is closed by that, and never touched again. -/
theorem conduct_regular {σ : Type} [Host σ] (config : Config) (store : Store) (host : σ)
    {calls : List LiveRoom.Call} (hfresh : (LiveRoom.opened calls).Nodup) (socket : SocketId) :
    let start : LiveRoom (Journal σ) := ⟨.withStore config store, .start host⟩
    Regular ((start.run calls).host.dealings socket) ∧
      ∀ before call after key t info s, calls = before ++ [call] ++ after →
        call.operation = .openSocket key t info →
        (start.run before).room.session? key = some s → s.socket? = some socket →
        .closed ∈ (start.run (before ++ [call])).host.dealings socket ∧
          (start.run calls).host.dealings socket =
            (start.run (before ++ [call])).host.dealings socket := by
  intro start
  have hstart : LiveRoom.Tied start socket .fresh := LiveRoom.tied_fresh socket config store host
  obtain ⟨tie, -, -, htied, -⟩ := hstart.run socket hfresh fun _ => rfl
  refine ⟨htied.regular, ?_⟩
  rintro before ⟨now, _⟩ after key t info s rfl rfl hs hsocket
  have hlate := (hstart.followed socket (List.append_assoc .. ▸ hfresh) hs hsocket).1
  rw [LiveRoom.opened_append, List.mem_append, not_or] at hlate
  rw [LiveRoom.opened_append, List.nodup_append] at hfresh
  obtain ⟨hno, standing, tie₁, -, hb, ht₁⟩ := hstart.followed socket hfresh.1 hs hsocket
  have hne : t ≠ socket := fun h => hno (h ▸ List.mem_cons_self)
  -- The session under the key has the other socket now.
  have hkey : (start.run (before ++ [⟨now, .openSocket key t info⟩])).room.holding? key =
      some (t, .waiting) := by
    rw [LiveRoom.run_append]
    exact ((LiveRoom.succeed_cases _ socket now key t info).1 key).trans (if_pos rfl)
  obtain rfl : tie₁ = .closed := by
    cases hb with
    | ends => rfl
    | same | connects =>
      obtain ⟨he, -⟩ := Prod.mk.inj (Option.some.inj (hkey.symm.trans ((ht₁.holder key _).2 rfl)))
      exact absurd he hne
  obtain ⟨tie₂, -, -, ht₂, hgrows⟩ := ht₁.run socket hfresh.2.1 fun h => absurd h hlate.2
  rw [← LiveRoom.run_append] at ht₂ hgrows
  exact ⟨(Standing.mem_closed_iff ht₁.logged nofun).2 rfl, ht₁.dealings_eq socket ht₂ hgrows⟩

/-- A session is connected and then replaced. -/
theorem conduct_regular_replaced :
    let before : List LiveRoom.Call := [⟨0, .openSocket "a" 0 .null⟩,
      ⟨0, .connect "a" ⟨"a", "presence:a", ⟨1, []⟩, none⟩⟩]
    let call : LiveRoom.Call := ⟨1, .openSocket "a" 1 .null⟩
    let after : List LiveRoom.Call := [⟨2, .connect "a" ⟨"a", "presence:a", ⟨1, []⟩, some 0⟩⟩,
      ⟨2, .push "a" ⟨"a", 1, [⟨"n", .upsert "note" (.object [])⟩], none⟩⟩]
    let start : LiveRoom (Journal Unit) := ⟨.new .notes, .start ()⟩
    Regular ((start.run (before ++ [call] ++ after)).host.dealings 0) ∧
      (start.run (before ++ [call] ++ after)).host.dealings 0 =
        [.took (.connected ⟨0, 1, false, .full []⟩), .closed] := by
  intro before call after start
  let s : Session := ⟨some "presence:a", .null, .connected ⟨0, ⟨1, []⟩, 0, .start 0 0⟩⟩
  have hs : (start.run before).room.session? "a" = some s := by decide +kernel
  have hlog : (start.run (before ++ [call])).host.dealings 0 =
      [.took (.connected ⟨0, 1, false, .full []⟩), .closed] := by decide +kernel
  obtain ⟨hregular, hreplaced⟩ := conduct_regular Config.notes
    (.empty Config.notes.maxTombstones Config.notes.pruneBuffer) ()
    (by decide : (LiveRoom.opened (before ++ [call] ++ after)).Nodup) 0
  exact ⟨hregular, (hreplaced before call after "a" 1 .null s rfl rfl hs rfl).2.trans hlog⟩

/-- As long as no socket is opened twice, a socket that was opened belongs to one session, which waits
for its handshake or is connected, and is open, or no session has it and it is closed. It is closed
as soon as a session that had it does not have it any more. -/
theorem conduct_owned {σ : Type} [Host σ] (config : Config) (store : Store) (host : σ)
    {calls : List LiveRoom.Call} (hfresh : (LiveRoom.opened calls).Nodup) {socket : SocketId}
    (hopened : socket ∈ LiveRoom.opened calls) :
    let start : LiveRoom (Journal σ) := ⟨.withStore config store, .start host⟩
    ((.closed ∉ (start.run calls).host.dealings socket ∧
        ∃ key s, (start.run calls).room.session? key = some s ∧ s.socket? = some socket ∧
          (s.phase = .awaitingConnect ∨ s.phase = .connected) ∧
          ∀ key' s', (start.run calls).room.session? key' = some s' → s'.socket? = some socket →
            key' = key) ∨
      (.closed ∈ (start.run calls).host.dealings socket ∧
        ∀ key s, (start.run calls).room.session? key = some s → s.socket? ≠ some socket)) ∧
    ∀ before after key s, calls = before ++ after →
      (start.run before).room.session? key = some s → s.socket? = some socket →
      (∀ s', (start.run calls).room.session? key = some s' → s'.socket? ≠ some socket) →
      .closed ∈ (start.run calls).host.dealings socket := by
  intro start
  have hstart : LiveRoom.Tied start socket .fresh := LiveRoom.tied_fresh socket config store host
  refine ⟨?_, ?_⟩
  · obtain ⟨tie, hties, -, ht, -⟩ := hstart.run socket hfresh fun _ => rfl
    cases tie with
    | fresh => exact absurd rfl (hties hopened).1
    | lifted => exact absurd rfl (hties hopened).2
    | closed =>
      refine .inr ⟨(Standing.mem_closed_iff ht.logged nofun).2 rfl, fun key s hs hsocket => ?_⟩
      obtain ⟨_, he⟩ := ht.of_session socket hs hsocket
      cases he
    | held key standing =>
      obtain ⟨s, hs, hheld⟩ := Option.bind_eq_some_iff.1 ((ht.holder key standing).2 rfl)
      have hsocket := Session.socket?_of_holding? hheld
      refine .inl ⟨fun hmem => ?_, key, s, hs, hsocket, Session.phase_of_socket? hsocket,
        fun key' s' hs' hsocket => ?_⟩
      · obtain rfl := (Standing.mem_closed_iff ht.logged nofun).1 hmem
        obtain he | he := ht.standing_cases <;> cases he
      · obtain ⟨_, he⟩ := ht.of_session socket hs' hsocket
        exact (Tie.held.inj he).1.symm
  · rintro before after key s rfl hs hsocket hgone
    obtain ⟨-, standing, tie, -, hb, ht⟩ := hstart.followed socket hfresh hs hsocket
    cases hb with
    | ends => exact (Standing.mem_closed_iff ht.logged nofun).2 rfl
    | same | connects =>
      obtain ⟨s', hs', hheld⟩ := Option.bind_eq_some_iff.1 ((ht.holder key _).2 rfl)
      exact absurd (Session.socket?_of_holding? hheld) (hgone s' hs')

/-- The first socket of a session that is replaced is closed, and the second one belongs to it. -/
theorem conduct_owned_replaced :
    let before : List LiveRoom.Call := [⟨0, .openSocket "a" 0 .null⟩,
      ⟨0, .connect "a" ⟨"a", "presence:a", ⟨1, []⟩, none⟩⟩]
    let after : List LiveRoom.Call := [⟨1, .openSocket "a" 1 .null⟩]
    let start : LiveRoom (Journal Unit) := ⟨.new .notes, .start ()⟩
    LiveRoom.opened (before ++ after) = [0, 1] ∧
      .closed ∈ (start.run (before ++ after)).host.dealings 0 ∧
      ∃ key s, (start.run (before ++ after)).room.session? key = some s ∧ s.socket? = some 1 := by
  intro before after start
  let s : Session := ⟨some "presence:a", .null, .connected ⟨0, ⟨1, []⟩, 0, .start 0 0⟩⟩
  let s' : Session := ⟨some "presence:a", .null, .awaitingConnect ⟨1, 1, some ⟨some "presence:a"⟩⟩⟩
  have hs : (start.run before).room.session? "a" = some s := by decide +kernel
  have hs' : (start.run (before ++ after)).room.session? "a" = some s' := by decide +kernel
  have hopen : .closed ∉ (start.run (before ++ after)).host.dealings 1 := by decide +kernel
  have hfresh : (LiveRoom.opened (before ++ after)).Nodup := by decide
  have hfirst := conduct_owned Config.notes
    (.empty Config.notes.maxTombstones Config.notes.pruneBuffer) () hfresh
    (by decide : 0 ∈ LiveRoom.opened (before ++ after))
  have hsecond := conduct_owned Config.notes
    (.empty Config.notes.maxTombstones Config.notes.pruneBuffer) () hfresh
    (by decide : 1 ∈ LiveRoom.opened (before ++ after))
  refine ⟨rfl, hfirst.2 before after "a" s rfl hs rfl fun t ht hsocket => ?_, ?_⟩
  · obtain rfl := Option.some.inj (hs'.symm.trans ht)
    cases hsocket
  · obtain ⟨-, key, t, ht, hsocket, -⟩ | ⟨hclosed, -⟩ := hsecond.1
    · exact ⟨key, t, ht, hsocket⟩
    · exact absurd hclosed hopen

end RoomSync
