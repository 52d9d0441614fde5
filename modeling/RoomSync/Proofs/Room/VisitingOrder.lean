import RoomSync.Proofs.Room.Departures

namespace RoomSync

open Table

namespace Room

variable (r : Room)

theorem contains_dropped {id id' : RecordId} (hne : id' ≠ id) :
    (r.dropped (some id)).presence.contains id' = r.presence.contains id' := by
  rw [Bool.eq_iff_iff, contains_iff, contains_iff, get?_presence_dropped, if_neg]
  exact fun he => hne (Option.some.inj he).symm

theorem dropped_of_contains {id : RecordId} (h : r.presence.contains id = true) :
    r.dropped (some id) =
      { r with presence := r.presence.erase id, store := r.store.advance } := if_pos h

theorem dropped_of_not_contains {id : RecordId} (h : ¬r.presence.contains id = true) :
    r.dropped (some id) = r := if_neg h

theorem dropped_comm (id id' : RecordId) :
    (r.dropped (some id)).dropped (some id') = (r.dropped (some id')).dropped (some id) := by
  by_cases hids : id' = id
  · rw [hids]
  · have hid' := r.contains_dropped hids
    have hid := r.contains_dropped (Ne.symm hids)
    by_cases h : r.presence.contains id = true <;> by_cases h' : r.presence.contains id' = true
    · have hcomm : (r.presence.erase id).erase id' = (r.presence.erase id').erase id :=
        Table.ext fun k => by
          simp only [get?_erase]
          split <;> split <;> rfl
      rw [dropped_of_contains _ (hid'.trans h'), dropped_of_contains _ (hid.trans h),
        dropped_of_contains _ h, dropped_of_contains _ h', hcomm]
    · rw [dropped_of_not_contains r h',
        dropped_of_not_contains _ fun hc => h' (hid'.symm.trans hc)]
    · rw [dropped_of_not_contains r h, dropped_of_not_contains _ fun hc => h (hid.symm.trans hc)]
    · rw [dropped_of_not_contains r h, dropped_of_not_contains r h', dropped_of_not_contains r h]

theorem droppedAll_perm {ids ids' : List RecordId} (h : ids.Perm ids') :
    r.droppedAll ids = r.droppedAll ids' :=
  h.foldl_eq' (fun id _ id' _ r => r.dropped_comm id id') r

end Room

theorem Session.Fares.eq_of_apart {now : Nat} {lost lost' : Prop} {s s₁ s₂ : Session}
    (h : s.Fares now lost s₁) (h' : s.Fares now lost' s₂) (h₁ : s₁.connected? = none)
    (h₂ : s₂.connected? = none) : s₁ = s₂ := by
  cases h with
  | apart hno =>
    cases h' with
    | apart _ => rfl
    | stays => cases h₂
    | parts _ hc => exact absurd hc (hno _)
  | stays => cases h₁
  | parts _ hc =>
    cases h' with
    | apart hno => exact absurd hc (hno _)
    | stays => cases h₂
    | parts => rfl

theorem Room.Weathers.session?_eq {now : Nat} {gone silent silent' : String → Prop}
    {log log' : Mishaps} {r r₁ r₂ : Room} {key : String} (h : r.Weathers now gone silent log r₁)
    (h' : r.Weathers now gone silent' log' r₂) (h₁ : r₁.connected? key = none)
    (h₂ : r₂.connected? key = none) : r₁.session? key = r₂.session? key := by
  cases hs : r.session? key with
  | none => rw [h.absent key hs, h'.absent key hs]
  | some s =>
    by_cases hgone : gone key
    · rw [h.leaves key hgone, h'.leaves key hgone]
    · obtain ⟨s₁, hs₁, hfares⟩ := h.stays key s hgone hs
      obtain ⟨s₂, hs₂, hfares'⟩ := h'.stays key s hgone hs
      rw [Room.connected?, hs₁] at h₁
      rw [Room.connected?, hs₂] at h₂
      rw [hs₁, hs₂, hfares.eq_of_apart hfares' h₁ h₂]

theorem Room.Weathers.exists_connected {now : Nat} {gone silent : String → Prop} {log : Mishaps}
    {r r' : Room} {key : String} {c' : Connected} (h : r.Weathers now gone silent log r')
    (hc' : r'.connected? key = some c') :
    ∃ c, r.connected? key = some c ∧ c' = { c with outbox := c'.outbox } := by
  obtain ⟨s', hs', hstate'⟩ := connected?_eq_some.1 hc'
  obtain ⟨s, hs, -, hfares⟩ := h.before hs'
  cases hfares with
  | apart hno => exact absurd hstate' (hno c')
  | @stays c outbox _ hc =>
    obtain rfl := SessionState.connected.inj hstate'
    exact ⟨c, connected?_eq_some.2 ⟨s, hs, hc⟩, rfl⟩
  | parts => cases hstate'

theorem Room.phase?_of_connected {r : Room} {key : String} {c : Connected}
    (h : r.connected? key = some c) : r.phase? key = some .connected := by
  obtain ⟨s, hs, hstate⟩ := connected?_eq_some.1 h
  rw [Room.phase?_eq_some hs, Session.phase, hstate]

namespace Draft

theorem pending_take_receive {d : Draft} (h : d.pending = []) (msg : ServerMessage) :
    (d.take (.receive msg)).pending = [] := by
  cases msg with
  | data batch =>
    change (d.foldBatch batch).1.pending = []
    rw [pending_foldBatch, h]
    rfl
  | connected _ | rejectConnect _ | pong | error _ => exact h

theorem pending_caughtUp {d : Draft} (h : d.pending = []) (sent : List ServerMessage)
    (held : List DataMessage) : (d.caughtUp sent held).pending = [] := by
  have htaken : (d.takeAll (sent.map .receive)).pending = [] := by
    induction sent generalizing d with
    | nil => exact h
    | cons msg rest ih => exact ih (pending_take_receive h msg)
  rw [caughtUp, pending_foldBatch, htaken]
  rfl

theorem caughtUp_append (d : Draft) (before sent : List ServerMessage) (held : List DataMessage) :
    d.caughtUp (before ++ sent) held = (d.takeAll (before.map .receive)).caughtUp sent held := by
  rw [caughtUp, List.map_append, takeAll, List.foldl_append]
  rfl

/-- A client that was sent some messages, and pushed meanwhile what it liked, makes the same of two
ways to go on: of what it is sent next, and then of what is held back for it. -/
def Converge (before taken₁ taken₂ : List ServerMessage) (held₁ held₂ : List DataMessage) : Prop :=
  ∃ sent₁ sent₂, taken₁ = before ++ sent₁ ∧ taken₂ = before ++ sent₂ ∧
    ∀ (d : Draft) inputs, inputs.filterMap Input.message? = before →
      let d₁ := (d.takeAll inputs).caughtUp sent₁ held₁
      let d₂ := (d.takeAll inputs).caughtUp sent₂ held₂
      Agrees (d₁.pending = []) d₁ d₂

theorem messages_receive (msgs : List ServerMessage) :
    (msgs.map Input.receive).filterMap Input.message? = msgs := by
  rw [List.filterMap_map]
  exact List.filterMap_some

theorem Converge.caughtUp_eq {before taken₁ taken₂ : List ServerMessage}
    {held₁ held₂ : List DataMessage} (h : Converge before taken₁ taken₂ held₁ held₂) {d : Draft}
    (hd : d.pending = []) : d.caughtUp taken₁ held₁ = d.caughtUp taken₂ held₂ := by
  obtain ⟨sent₁, sent₂, rfl, rfl, hagrees⟩ := h
  have hnone := pending_caughtUp hd (before ++ sent₁) held₁
  rw [caughtUp_append] at hnone
  rw [caughtUp_append, caughtUp_append]
  exact (hagrees d _ (messages_receive before)).eq hnone

end Draft

namespace LiveRoom

open Room

variable {answer : SocketId → Nat → Option SocketError} {config : Config}
  {l : LiveRoom (Journal Switchboard)} {now : Nat} {key : String} {i i₁ i₂ : Itinerary}

/-- Two rooms that came of one in the same tick are as good as each other. -/
structure Concur (l l₁ l₂ : LiveRoom (Journal Switchboard)) : Prop where
  /-- The clock, the documents, and what is known of deleted ones. -/
  store : l₁.room.store = l₂.room.store
  presence : l₁.room.presence = l₂.room.presence
  phases : ∀ key, l₁.room.phase? key = l₂.room.phase? key
  apart : ∀ key, l₁.room.connected? key = none → l₁.room.session? key = l₂.room.session? key
  connections : ∀ key c₁ c₂, l₁.room.connected? key = some c₁ → l₂.room.connected? key = some c₂ →
    c₂ = { c₁ with outbox := { c₁.outbox with held := c₂.outbox.held } } ∧
      c₂.outbox.held.length = c₁.outbox.held.length
  /-- A client that takes all that was sent, and then what is held back, has the same replica. -/
  replicas : ∀ key c₁ c₂, l₁.room.connected? key = some c₁ → l₂.room.connected? key = some c₂ →
    ∀ d : Draft, d.pending = [] →
      d.caughtUp (l₁.host.taken c₁.socket) c₁.outbox.held =
        d.caughtUp (l₂.host.taken c₂.socket) c₂.outbox.held
  /-- It may have pushed in between. -/
  writers : ∀ key c₁ c₂, l₁.room.connected? key = some c₁ → l₂.room.connected? key = some c₂ →
    Draft.Converge (l.host.taken c₁.socket) (l₁.host.taken c₁.socket) (l₂.host.taken c₂.socket)
      c₁.outbox.held c₂.outbox.held

theorem Wired.visiting (h : l.Wired answer config) (i : Itinerary) :
    (l.visiting i).Wired answer config := ⟨h.answer, h.config, h.distinct⟩

theorem expired_visiting_perm (l : LiveRoom (Journal Switchboard)) (now : Nat)
    (i₁ i₂ : Itinerary) : ((l.visiting i₁).expired now).Perm ((l.visiting i₂).expired now) := by
  refine List.Perm.filterMap _ ?_
  exact (Host.visit_perm (l.visiting i₁).host _).trans (Host.visit_perm (l.visiting i₂).host _).symm

def withdrawn (l : LiveRoom (Journal Switchboard)) (now : Nat) : List RecordId :=
  (l.expired now).filterMap l.room.withdrawn?

theorem withdrawn_visiting_perm (l : LiveRoom (Journal Switchboard)) (now : Nat)
    (i₁ i₂ : Itinerary) : ((l.visiting i₁).withdrawn now).Perm ((l.visiting i₂).withdrawn now) :=
  (l.expired_visiting_perm now i₁ i₂).filterMap _

theorem lane?_swept_visiting (h : l.Wired answer config) (hp : l.room.Placed) (i : Itinerary)
    (now : Nat) (key : String) :
    ((l.visiting i).swept now).lane? key = if (l.room.overdue? now key).isSome then none else
      (l.lane? key).bind fun lane =>
        (lane.withdraw answer config now l.room.clock ((l.visiting i).withdrawn now)).bind
          (Lane.flush answer config now) :=
  (lane?_swept (h.visiting i) hp now key).trans (by rw [Option.bind_assoc]; rfl)

theorem rel_swept (h : l.Wired answer config) (hp : l.room.Placed) (now : Nat) (i₁ i₂ : Itinerary)
    (key : String) : Option.Rel Lane.Alongside (((l.visiting i₁).swept now).lane? key)
      (((l.visiting i₂).swept now).lane? key) := by
  rw [lane?_swept_visiting h hp, lane?_swept_visiting h hp]
  split
  · exact .none
  · cases l.lane? key with
    | none => exact .none
    | some lane =>
      have hlength := (l.withdrawn_visiting_perm now i₁ i₂).length_eq
      rw [Option.bind_some, Option.bind_some]
      exact Lane.rel_bind ((Lane.Alongside.refl lane).withdraw hlength l.room.clock)
        fun x y h => h.flush

theorem connected?_swept_eq_none (h : l.Wired answer config) (hp : l.room.Placed) (now : Nat)
    (i₁ i₂ : Itinerary) (key : String) :
    ((l.visiting i₁).swept now).room.connected? key = none ↔
      ((l.visiting i₂).swept now).room.connected? key = none := by
  have hnone : ∀ l : LiveRoom (Journal Switchboard), l.lane? key = none ↔
      l.room.connected? key = none := fun l => Option.map_eq_none_iff
  have hrel := rel_swept h hp now i₁ i₂ key
  rw [← hnone, ← hnone]
  generalize ((l.visiting i₁).swept now).lane? key = x? at hrel ⊢
  generalize ((l.visiting i₂).swept now).lane? key = y? at hrel ⊢
  cases hrel with
  | none => exact Iff.rfl
  | some _ => exact ⟨nofun, nofun⟩

theorem alongside_swept (h : l.Wired answer config) (hp : l.room.Placed) {c₁ c₂ : Connected}
    (h₁ : ((l.visiting i₁).swept now).room.connected? key = some c₁)
    (h₂ : ((l.visiting i₂).swept now).room.connected? key = some c₂) :
    c₂ = { c₁ with outbox := { c₁.outbox with held := c₂.outbox.held } } ∧
      c₂.outbox.held.length = c₁.outbox.held.length := by
  have hrel := rel_swept h hp now i₁ i₂ key
  rw [lane?, h₁, lane?, h₂] at hrel
  obtain ⟨hconnected, hheld, -⟩ := Option.rel_some_some.1 hrel
  exact ⟨hconnected, hheld⟩

theorem agrees_swept (h : l.Wired answer config) {sockets : List SocketId} (hl : Leads sockets l)
    {c c' : Connected} (hc : l.room.connected? key = some c)
    (hc' : ((l.visiting i).swept now).room.connected? key = some c') :
    let lane : Lane := ⟨c, l.host.host.count c.socket, l.host.taken c.socket⟩
    ∃ sent, ((l.visiting i).swept now).host.taken c'.socket = l.host.taken c.socket ++ sent ∧
      ∀ (d : Draft) inputs, inputs.filterMap Draft.Input.message? = l.host.taken c.socket →
        let expected := lane.expected (d.takeAll inputs) l.room.clock
          ((l.visiting i).withdrawn now) c'.outbox.held
        Draft.Agrees (expected.pending = []) ((d.takeAll inputs).caughtUp sent c'.outbox.held)
          expected := by
  intro lane
  have hswept := lane?_swept_visiting h hl.placed i now key
  rw [lane?, hc', lane?, hc] at hswept
  split at hswept
  · cases hswept
  · obtain ⟨hheld, hclient⟩ := hl.clock_le hc
    have hupTo := hl.current key c.outbox (Option.map_eq_some_iff.2 ⟨c, hc, rfl⟩)
    obtain ⟨sent, htaken, hagrees⟩ := @Lane.agrees_expected answer config now l.room.clock lane _ _
      hupTo.lastSent hswept.symm hupTo.windowed hheld
    exact ⟨sent, htaken, fun d inputs hinputs => hagrees _ (hclient d inputs hinputs)⟩

theorem converge_swept (h : l.Wired answer config) {sockets : List SocketId} (hl : Leads sockets l)
    {c₁ c₂ : Connected} (h₁ : ((l.visiting i₁).swept now).room.connected? key = some c₁)
    (h₂ : ((l.visiting i₂).swept now).room.connected? key = some c₂) :
    Draft.Converge (l.host.taken c₁.socket) (((l.visiting i₁).swept now).host.taken c₁.socket)
      (((l.visiting i₂).swept now).host.taken c₂.socket) c₁.outbox.held c₂.outbox.held := by
  obtain ⟨c, hc, hkept⟩ := ((l.visiting i₁).weathers_swept now).exists_connected h₁
  have hsocket : c₁.socket = c.socket := by rw [hkept]
  obtain ⟨sent₁, htaken₁, hagrees₁⟩ := agrees_swept h hl hc h₁
  obtain ⟨sent₂, htaken₂, hagrees₂⟩ := agrees_swept h hl hc h₂
  rw [hsocket] at htaken₁ ⊢
  refine ⟨sent₁, sent₂, htaken₁, htaken₂, fun d inputs hinputs => ?_⟩
  intro d₁ d₂
  have hperm := l.withdrawn_visiting_perm now i₁ i₂
  have hlength := (alongside_swept h hl.placed h₁ h₂).2
  have hagrees₁ := hagrees₁ d inputs hinputs
  have hagrees₂ := hagrees₂ d inputs hinputs
  rw [Lane.expected_perm _ _ _ hperm hlength.symm] at hagrees₁
  rw [hagrees₁.pending]
  exact hagrees₁.trans hagrees₂.symm

theorem concur_tick (h : l.Wired answer config) {sockets : List SocketId} (hl : Leads sockets l)
    (now : Nat) (i₁ i₂ : Itinerary) :
    Concur l ((l.visiting i₁).tick now).1 ((l.visiting i₂).tick now).1 := by
  let l₁ := (l.visiting i₁).swept now
  let l₂ := (l.visiting i₂).swept now
  have hrests₁ := @rests_swept (l.visiting i₁) hl.placed now
  have hrests₂ := @rests_swept (l.visiting i₂) hl.placed now
  have hdropped := l.room.droppedAll_perm (l.withdrawn_visiting_perm now i₁ i₂)
  have hnone := connected?_swept_eq_none h hl.placed now i₁ i₂
  have hapart : ∀ key, l₁.room.connected? key = none →
      l₁.room.session? key = l₂.room.session? key := fun key hc =>
    ((l.visiting i₁).weathers_swept now).session?_eq ((l.visiting i₂).weathers_swept now) hc
      ((hnone key).1 hc)
  refine ⟨?_, ?_, fun key => ?_, hapart, fun key c₁ c₂ => alongside_swept h hl.placed,
    fun key c₁ c₂ h₁ h₂ d => (converge_swept h hl h₁ h₂).caughtUp_eq,
    fun key c₁ c₂ => converge_swept h hl⟩
  · exact hrests₁.store.trans ((congrArg Room.store hdropped).trans hrests₂.store.symm)
  · exact hrests₁.presence.trans ((congrArg Room.presence hdropped).trans hrests₂.presence.symm)
  · cases hc : l₁.room.connected? key with
    | none => exact congrArg (Option.map Session.phase) (hapart key hc)
    | some c₁ =>
      cases hc₂ : l₂.room.connected? key with
      | none => cases ((hnone key).2 hc₂).symm.trans hc
      | some c₂ => exact (phase?_of_connected hc).trans (phase?_of_connected hc₂).symm

theorem wired_run (config : Config) (snapshot : Snapshot)
    (answer : SocketId → Nat → Option SocketError) (itinerary : Itinerary) {calls : List Call}
    (hnodup : (opened calls).Nodup) :
    (run ⟨.ofSnapshot config snapshot, .start ⟨answer, itinerary, []⟩⟩ calls).Wired
      answer config := by
  let start : LiveRoom (Journal Switchboard) :=
    ⟨.ofSnapshot config snapshot, .start ⟨answer, itinerary, []⟩⟩
  have hleads := leads_run config snapshot (⟨answer, itinerary, []⟩ : Switchboard) hnodup
  have hstart : start.host.host.answer = answer := rfl
  refine ⟨?_, config_run (l := start) (current_withStore config _) calls, hleads.plugged.distinct⟩
  exact run_keeps (P := fun l => l.host.host.answer = answer)
    (fun _ _ _ _ ht h => ht.host (keeps_answer answer) h) hstart calls

/-- Whatever happened in a room whose sockets were opened once each, a tick does the same in
whatever orders it visits the sessions. -/
theorem concur_run (config : Config) (snapshot : Snapshot)
    (answer : SocketId → Nat → Option SocketError) (itinerary : Itinerary) {calls : List Call}
    (hnodup : (opened calls).Nodup) (now : Nat) (i₁ i₂ : Itinerary) :
    let l := run ⟨.ofSnapshot config snapshot, .start ⟨answer, itinerary, []⟩⟩ calls
    Concur l ((l.visiting i₁).tick now).1 ((l.visiting i₂).tick now).1 :=
  concur_tick (wired_run config snapshot answer itinerary hnodup)
    (leads_run config snapshot (⟨answer, itinerary, []⟩ : Switchboard) hnodup) now i₁ i₂

/-- Two sessions with presence leave. One of the others was silent for too long, for one too much is
held back then, and one has a full socket. Of the two that stay, one gets both changes at once, and
the other one gets first the change that comes first. -/
theorem concur_run_crowded :
    let config : Config := { maxOutstanding := 2 }
    let enter : Nat → String → SocketId → List Call := fun now key socket =>
      [⟨now, .openSocket key socket .null⟩,
        ⟨now, .connect key ⟨key, "presence:" ++ key, ⟨1, []⟩, none⟩⟩]
    let push : Nat → String → Nat → Option Content → Call := fun now key pushId presence =>
      ⟨now, .push key ⟨key, pushId, [], presence⟩⟩
    let calls : List Call :=
      enter 0 "gone" 0 ++ enter 0 "left" 1 ++
        [push 0 "gone" 1 (some (.object [])), push 0 "left" 1 (some (.object []))] ++
        enter 9000 "idle" 2 ++ [⟨15000, .socketClosed "gone" 0⟩, ⟨15000, .socketClosed "left" 1⟩] ++
        enter 29000 "due" 3 ++ [push 29000 "due" 1 none] ++ enter 29990 "slow" 4 ++
        [push 29990 "slow" 1 none, push 29990 "slow" 2 none] ++ enter 29990 "full" 5 ++
        enter 29990 "well" 6
    let answer : SocketId → Nat → Option SocketError := fun socket count =>
      if socket = 5 ∧ 1 ≤ count then some .full else none
    let forth : Itinerary := ⟨fun _ keys => keys, fun _ keys => .refl keys⟩
    let back : Itinerary := ⟨fun _ keys => keys.reverse, fun _ keys => keys.reverse_perm⟩
    let l : LiveRoom (Journal Switchboard) :=
      run ⟨.ofSnapshot config ⟨0, []⟩, .start ⟨answer, forth, []⟩⟩ calls
    let l₁ := ((l.visiting forth).tick 30000).1
    let l₂ := ((l.visiting back).tick 30000).1
    (opened calls).Nodup ∧
      ["gone", "left", "idle", "slow", "full", "due", "well"].map l₁.room.phase? =
        [none, none, some .awaitingRemoval, some .awaitingRemoval, some .awaitingRemoval,
          some .connected, some .connected] ∧
      (l₁.host.taken 3).length = (l.host.taken 3).length + 1 ∧
      l₁.host.taken 6 ≠ l₂.host.taken 6 ∧ Concur l l₁ l₂ := by
  intro config enter push calls answer forth back l l₁ l₂
  have hphases : ["gone", "left", "idle", "slow", "full", "due", "well"].map l₁.room.phase? =
      [none, none, some .awaitingRemoval, some .awaitingRemoval, some .awaitingRemoval,
        some .connected, some .connected] := by decide +kernel
  have hmerged : (l₁.host.taken 3).length = (l.host.taken 3).length + 1 := by decide +kernel
  have hdiffers : l₁.host.taken 6 ≠ l₂.host.taken 6 := by decide +kernel
  have hnodup : (opened calls).Nodup := by decide +kernel
  exact ⟨hnodup, hphases, hmerged, hdiffers,
    concur_run config ⟨0, []⟩ answer forth hnodup 30000 forth back⟩

end LiveRoom

end RoomSync
