import RoomSync.Proofs.Room.Reception

namespace RoomSync

open Table

abbrev Phases := String → Option Phase

def Room.phase? (r : Room) : Phases := fun key => (r.session? key).map Session.phase

theorem Session.phase_mapConnected (s : Session) (f : Connected → Connected) :
    (s.mapConnected f).phase = s.phase := by
  obtain ⟨presenceId, info, state⟩ := s
  cases state <;> rfl

def LifecycleEvent.key : LifecycleEvent → String
  | .connected key _ | .cancelled key _ | .removed key _ => key

inductive Milestone where
  | opened (key : String)
  | told (event : LifecycleEvent)
deriving DecidableEq, Repr, Inhabited

namespace Milestone

def key : Milestone → String
  | .opened key => key
  | .told event => event.key

def event? : Milestone → Option LifecycleEvent
  | .opened _ => none
  | .told event => some event

def leadsTo : Milestone → Option Phase
  | .opened _ => some .awaitingConnect
  | .told (.connected _ _) => some .connected
  | .told (.cancelled _ _) => some .awaitingRemoval
  | .told (.removed _ _) => none

/-- Whether it may come to a session in a phase, or to none. A socket may be opened at any time. -/
def Fits (phase : Option Phase) : Milestone → Prop
  | .opened _ => True
  | .told (.connected _ _) => phase = some .awaitingConnect
  | .told (.cancelled _ _) => phase = some .connected
  | .told (.removed _ _) => phase.isSome = true

end Milestone

namespace Phases

def pass (phases : Phases) (m : Milestone) : Phases :=
  fun key => if key = m.key then m.leadsTo else phases key

def replay (phases : Phases) (ms : List Milestone) : Phases := ms.foldl pass phases

/-- Each milestone fits the phase that those before it led to. -/
def Orderly (phases : Phases) : List Milestone → Prop
  | [] => True
  | m :: rest => m.Fits (phases m.key) ∧ Orderly (phases.pass m) rest

/-- In this order the milestones lead from some phases to others. -/
structure Leads (phases : Phases) (ms : List Milestone) (phases' : Phases) : Prop where
  orderly : phases.Orderly ms
  replay : phases.replay ms = phases'

variable {phases phases' phases'' : Phases} {ms ms' : List Milestone} {m : Milestone}

theorem Orderly.fits {before after : List Milestone}
    (h : phases.Orderly (before ++ m :: after)) : m.Fits (phases.replay before m.key) := by
  induction before generalizing phases with
  | nil => exact h.1
  | cons first rest ih => exact ih h.2

namespace Leads

theorem nil (phases : Phases) : phases.Leads [] phases := ⟨trivial, rfl⟩

theorem cons (hm : m.Fits (phases m.key)) (h : (phases.pass m).Leads ms phases') :
    phases.Leads (m :: ms) phases' := ⟨⟨hm, h.orderly⟩, h.replay⟩

theorem single (hm : m.Fits (phases m.key)) : phases.Leads [m] (phases.pass m) :=
  cons hm (nil _)

theorem trans (h : phases.Leads ms phases') (h' : phases'.Leads ms' phases'') :
    phases.Leads (ms ++ ms') phases'' := by
  induction ms generalizing phases with
  | nil =>
    obtain rfl : phases = phases' := h.replay
    exact h'
  | cons m rest ih => exact cons h.orderly.1 (ih ⟨h.orderly.2, h.replay⟩)

end Leads

/-- No event is told of a session that is not there, so the same events fit whatever phase a session
has that they are not about. -/
theorem Leads.beside {events : List LifecycleEvent} {key : String}
    (h : phases.Leads (events.map .told) phases') (hnone : phases key = none)
    (phase : Option Phase) :
    phases' key = none ∧ Leads (fun k => if k = key then phase else phases k) (events.map .told)
      (fun k => if k = key then phase else phases' k) := by
  induction events generalizing phases with
  | nil =>
    obtain rfl : phases = phases' := h.replay
    exact ⟨hnone, .nil _⟩
  | cons event rest ih =>
    have hfits : Milestone.Fits (phases event.key) (.told event) := h.orderly.1
    have hkey : event.key ≠ key := by
      intro he
      rw [he, hnone] at hfits
      cases event <;> cases hfits
    have hpass : ∀ {other : Phases} {k : String}, k ≠ event.key →
        other.pass (.told event) k = other k := fun hk => if_neg hk
    have hlater : (phases.pass (.told event)).Leads (rest.map .told) phases' :=
      ⟨h.orderly.2, h.replay⟩
    obtain ⟨hnone', hrest⟩ := ih hlater ((hpass hkey.symm).trans hnone)
    refine ⟨hnone', .cons ?_ ?_⟩
    · change Milestone.Fits (if event.key = key then phase else phases event.key) _
      rwa [if_neg hkey]
    · have hcomm : Phases.pass (fun k => if k = key then phase else phases k) (.told event) =
          fun k => if k = key then phase else phases.pass (.told event) k := by
        funext k
        by_cases hk : k = key
        · rw [if_pos hk, hpass (hk ▸ hkey.symm), if_pos hk]
        · rw [if_neg hk]
          simp only [pass, if_neg hk]
      rw [List.map_cons] at *
      exact hcomm ▸ hrest

end Phases

namespace Room

/-- One room follows another one by events that tell all that became of its sessions. -/
def Recounts (r r' : Room) : Prop :=
  ∃ events : List LifecycleEvent, r'.events = r.events ++ events ∧
    r.phase?.Leads (events.map .told) r'.phase?

namespace Recounts

variable {r r' r'' : Room}

theorem of_same (hevents : r'.events = r.events) (hphases : r'.phase? = r.phase?) :
    r.Recounts r' := ⟨[], by rw [hevents, List.append_nil], hphases ▸ .nil _⟩

theorem refl (r : Room) : r.Recounts r := .of_same rfl rfl

theorem trans (h : r.Recounts r') (h' : r'.Recounts r'') : r.Recounts r'' := by
  obtain ⟨events, he, hl⟩ := h
  obtain ⟨events', he', hl'⟩ := h'
  refine ⟨events ++ events', by rw [he', he, List.append_assoc], ?_⟩
  rw [List.map_append]
  exact hl.trans hl'

end Recounts

theorem phase?_of_sessions {r r' : Room} (h : r'.sessions = r.sessions) :
    r'.phase? = r.phase? := by
  funext key
  rw [phase?, session?, h]
  rfl

theorem phase?_seated (r : Room) (key : String) (s : Session) (k : String) :
    (r.seated key s).phase? k = if k = key then some s.phase else r.phase? k := by
  rw [phase?, session?_seated]
  split <;> rfl

theorem phase?_without (r : Room) (key k : String) :
    (r.without key).phase? k = if k = key then none else r.phase? k := by
  rw [phase?, session?_without]
  split <;> rfl

theorem phase?_modifySession (r : Room) (key : String) {f : Session → Session}
    (hf : ∀ s, (f s).phase = s.phase) : (r.modifySession key f).phase? = r.phase? := by
  funext k
  rw [phase?, session?_modifySession]
  split
  · rw [Option.map_map]
    exact congrArg (Option.map · _) (funext hf)
  · rfl

theorem phase?_eq_some {r : Room} {key : String} {s : Session} (hs : r.session? key = some s) :
    r.phase? key = some s.phase := congrArg (Option.map Session.phase) hs

namespace Recounts

variable {r r' r₁ : Room} {key : String}

theorem event (event : LifecycleEvent) (hfits : Milestone.Fits (r.phase? event.key) (.told event))
    (hevents : r'.events = r.events ++ [event]) (hphases : r'.phase? = r.phase?.pass (.told event)) :
    r.Recounts r' := ⟨[event], hevents, hphases ▸ .single hfits⟩

theorem around (event : LifecycleEvent)
    (hfits : Milestone.Fits (r.phase? event.key) (.told event)) (h : (r.without event.key).Recounts r₁)
    (hevents : r'.events = r₁.events ++ [event])
    (hphases : r'.phase? = r₁.phase?.pass (.told event)) : r.Recounts r' := by
  obtain ⟨events, he, hl⟩ := h
  obtain ⟨-, hl⟩ := hl.beside ((r.phase?_without event.key event.key).trans (if_pos rfl))
    (r.phase? event.key)
  have hstart : (fun k => if k = event.key then r.phase? event.key
      else (r.without event.key).phase? k) = r.phase? := by
    funext k
    by_cases hk : k = event.key
    · rw [if_pos hk, hk]
    · rw [if_neg hk, phase?_without, if_neg hk]
  rw [hstart] at hl
  refine ⟨events ++ [event], ?_, ?_⟩
  · rw [hevents, he, List.append_assoc]
    rfl
  · have hend : Phases.pass (fun k => if k = event.key then r.phase? event.key
        else r₁.phase? k) (.told event) = r'.phase? := by
      rw [hphases]
      funext k
      by_cases hk : k = event.key
      · exact (if_pos hk).trans (if_pos hk).symm
      · exact ((if_neg hk).trans (if_neg hk)).trans (if_neg hk).symm
    rw [List.map_append, ← hend]
    refine hl.trans (.single ?_)
    change Milestone.Fits (if event.key = event.key then _ else _) _
    rwa [if_pos rfl]

theorem dropped (r : Room) (id? : Option RecordId) : r.Recounts (r.dropped id?) := by
  refine .of_same ?_ (phase?_of_sessions (r.sessions_dropped id?))
  cases id? with
  | none => rfl
  | some id =>
    rw [Room.dropped]
    split <;> rfl

theorem touch (r : Room) (key : String) (now : Nat) :
    r.Recounts (r.modifySession key (·.touch now)) :=
  .of_same rfl (r.phase?_modifySession key fun s => s.phase_mapConnected _)

theorem applyPush (r : Room) (own : Option RecordId) (push : Push) :
    r.Recounts (r.applyPush own push).1 := by
  refine .of_same ?_ (phase?_of_sessions (r.applyPush_frame own push).2)
  obtain ⟨_, he, -⟩ | ⟨_, _, _, _, -, -, -, he⟩ := r.applyPush_cases own push <;> rw [he]

end Recounts

end Room

namespace LiveRoom

open Room

variable {σ : Type} [Host σ] (l : LiveRoom σ) (now : Nat) {key : String}

theorem recounts_cancel (key : String) (cause : CancelCause) :
    l.room.Recounts (l.cancel key cause now).room := by
  cases hs : l.room.session? key with
  | none =>
    rw [l.cancel_of_none cause now hs]
    exact .refl _
  | some s =>
    by_cases hc : ∃ c, s.state = .connected c
    · obtain ⟨c, hc⟩ := hc
      rw [l.cancel_of_connected cause now hs hc]
      have hphase : s.phase = .connected := by rw [Session.phase, hc]
      refine .event (.cancelled key cause) ((phase?_eq_some hs).trans (congrArg some hphase)) rfl ?_
      funext k
      exact phase?_seated l.room key _ k
    · rw [l.cancel_of_not_connected cause now hs fun c h => hc ⟨c, h⟩]
      refine .of_same rfl (funext fun k => ?_)
      rw [phase?_seated]
      split
      · rename_i hk
        rw [hk, phase?_eq_some hs]
      · rfl

theorem delivery_recounts :
    Delivery now fun l l' : LiveRoom σ => l.room.Recounts l'.room where
  refl _ := .refl _
  trans := .trans
  tell _ _ _ := .refl _
  setOutbox l key _ :=
    .of_same rfl (l.room.phase?_modifySession key fun s => s.phase_mapConnected _)
  cancel l := l.recounts_cancel now

theorem recounts_dropPresence? (id? : Option RecordId) :
    l.room.Recounts (l.dropPresence? id? now).room :=
  (Recounts.dropped l.room id?).trans ((delivery_recounts now).dropPresence? l id?)

theorem recounts_remove (key : String) (cause : RemovalCause) :
    l.room.Recounts (l.remove key cause now).room := by
  cases hs : l.room.session? key with
  | none =>
    rw [remove, hs]
    exact .refl _
  | some s =>
    have hothers := (l.left key s).recounts_dropPresence? now s.presenceId
    rw [l.room_left key s] at hothers
    have hgone := l.session?_remove now key cause
    rw [remove_eq hs] at hgone ⊢
    refine .around (.removed key cause) ?_ hothers rfl (funext fun k => ?_)
    · change (l.room.phase? key).isSome = true
      rw [phase?_eq_some hs]
      rfl
    · change _ = if k = key then none else _
      split
      · rename_i hk
        rw [hk]
        exact congrArg (Option.map Session.phase) hgone
      · rfl

/-- The events of a handshake come between those of the sessions that cannot take the news of the
presence that is dropped, and the loss of the new connection. -/
theorem recounts_accept {s : Session} {waiting : Waiting} (hs : l.room.session? key = some s)
    (hw : s.state = .awaitingConnect waiting) (request : ConnectRequest) :
    l.room.Recounts (l.accept key s waiting request now).1.room := by
  let ready := l.readied key s request now
  let guest := ready.guest s waiting request now
  let resumed := waiting.resume.isSome
  let connected : LiveRoom σ :=
    ⟨(ready.room.seated key guest).note (.connected key resumed), ready.host⟩
  have hothers : (l.room.without key).Recounts ready.room :=
    (l.forget key).recounts_dropPresence? now _
  have hphase : s.phase = .awaitingConnect := by rw [Session.phase, hw]
  have hconnected : l.room.Recounts connected.room := by
    refine .around (.connected key resumed) ?_ hothers rfl (funext fun k => ?_)
    · exact (phase?_eq_some hs).trans (congrArg some hphase)
    · exact phase?_seated ready.room key guest k
  exact hconnected.trans ((delivery_recounts now).sendFrame connected key waiting.socket _)

theorem recounts_serve (key : String) (own : Option RecordId) (push : Push) :
    l.room.Recounts (l.serve key own push now).room := by
  have hanswered := (Recounts.applyPush l.room own push).trans
    ((delivery_recounts now).sendData ⟨(l.room.applyPush own push).1, l.host⟩ key
      (.pushResult (l.room.answer own push)))
  unfold serve
  dsimp only
  split
  · exact hanswered
  · exact hanswered.trans ((delivery_recounts now).broadcast _ _ (some key))

theorem recounts_receivePush (key : String) (push : Push) :
    l.room.Recounts (l.receivePush key push now).1.room := by
  obtain ⟨_, -, he⟩ | ⟨s, hs, hc, hkey⟩ := l.receivePush_cases now key push
  · rw [he]
    exact .refl _
  · rw [l.receivePush_of_connected now hs hc hkey]
    exact (Recounts.touch l.room key now).trans (recounts_serve ⟨_, l.host⟩ now key _ push)

theorem recounts_connect (key : String) (request : ConnectRequest) :
    l.room.Recounts (l.connect key request now).1.room := by
  obtain ⟨_, -, he⟩ | ⟨_, waiting, msg, cause, _, -, -, -, -, he⟩ | ⟨s, waiting, ha⟩ :=
    l.connect_cases now key request
  · rw [he]
    exact .refl _
  · rw [he]
    exact recounts_remove (l.tell waiting.socket msg) now key cause
  · rw [ha.connect]
    exact l.recounts_accept now ha.session ha.state request

theorem recounts_receive (key : String) (frame : Wire.Bytes) :
    l.room.Recounts (l.receive key frame now).1.room := by
  have hr := l.reception key frame now
  generalize l.receive key frame now = answer at hr
  cases hr with
  | unknown | ignored => exact .refl _
  | @ended _ socket msg cause => exact recounts_remove (l.tell socket msg) now key cause
  | greets _ ha => exact l.recounts_accept now ha.session ha.state _
  | serves => exact l.recounts_receivePush now key _
  | pongs => exact (Recounts.touch l.room key now).trans ((delivery_recounts now).pong ⟨_, l.host⟩ key)

theorem recounts_expire (key : String) : l.room.Recounts (l.expire key now).room := by
  unfold expire
  split
  · split
    · exact l.recounts_remove now key _
    · exact .refl _
  · exact .refl _

theorem recounts_socketClosed (key : String) (socket : SocketId) :
    l.room.Recounts (l.socketClosed key socket now).room := by
  unfold socketClosed
  split
  · exact .refl _
  · split
    · exact .refl _
    · split
      · exact l.recounts_cancel now key _
      · exact l.recounts_remove now key _

theorem recounts_expireSession (expired : String × Expiry) :
    l.room.Recounts (expireSession now l expired).room := by
  obtain ⟨key, expiry⟩ := expired
  cases expiry with
  | startTimeout => exact l.recounts_remove now key _
  | idle => exact l.recounts_cancel now key _
  | removalGrace => exact l.recounts_remove now key _

theorem recounts_kick (key : String) : l.room.Recounts (l.kick key now).1.room := by
  let forbidden := if key ∈ l.room.forbidden then l.room.forbidden else key :: l.room.forbidden
  have hforbidden : l.room.Recounts { l.room with forbidden } := .of_same rfl rfl
  exact hforbidden.trans (recounts_remove ⟨_, l.host⟩ now key .kicked)

def swept : LiveRoom σ :=
  let l := (l.expired now).foldl (expireSession now) l
  (Host.visit l.host l.room.connectedKeys).foldl (flushSession now) l

theorem recounts_swept : l.room.Recounts (l.swept now).room := by
  have h := delivery_recounts (σ := σ) now
  exact h.trans (h.foldl l (fun l expired => l.recounts_expireSession now expired) _)
    (h.foldl _ (fun l key => h.flushSession l key) _)

def returned (call : Call) : List LifecycleEvent :=
  match call.operation with
  | .tick => (l.tick call.now).2
  | .takeEvents => l.takeEvents.2
  | _ => []

def logged (call : Call) : List LifecycleEvent :=
  (l.returned call ++ (l.perform call).room.events).drop l.room.events.length

/-- What a call leads to: its events, and then the socket that it opened. -/
def milestones (call : Call) : List Milestone :=
  (l.logged call).map .told ++
    match call.operation with
    | .openSocket key _ _ => [.opened key]
    | _ => []

variable {l} in
theorem logged_eq {call : Call} {events : List LifecycleEvent}
    (h : l.returned call ++ (l.perform call).room.events = l.room.events ++ events) :
    l.logged call = events := by
  rw [logged, h, List.drop_left]

theorem room_succeed (key : String) (socket : SocketId) (info : Content) : ∃ resume info',
    (l.succeed key socket info now).room =
      l.room.seated key (.start socket now resume info') := by
  cases hs : l.room.session? key with
  | none => exact ⟨none, info, by rw [succeed_of_none hs]⟩
  | some old =>
    obtain ⟨info', he⟩ := succeed_of_some hs socket info now
    exact ⟨old.successor, info', by rw [he]⟩

theorem leads_milestones (call : Call) :
    l.returned call ++ (l.perform call).room.events = l.room.events ++ l.logged call ∧
      l.room.phase?.Leads (l.milestones call) (l.perform call).room.phase? := by
  -- Nothing but a socket that is opened begins a phase without an event.
  have hquiet : ∀ r : Room, l.room.Recounts r → r.phase? = (l.perform call).room.phase? →
      l.returned call ++ (l.perform call).room.events = r.events →
      l.milestones call = (l.logged call).map .told →
      l.returned call ++ (l.perform call).room.events = l.room.events ++ l.logged call ∧
        l.room.phase?.Leads (l.milestones call) (l.perform call).room.phase? := by
    rintro r ⟨events, he, hl⟩ hphase hevents hmilestones
    have hlogged := logged_eq (hevents.trans he)
    rw [hmilestones, hlogged, ← hphase]
    exact ⟨hevents.trans he, hl⟩
  obtain ⟨now, operation⟩ := call
  cases operation with
  | openSocket key socket info =>
    obtain ⟨events, he, hl⟩ := l.recounts_expire now key
    obtain ⟨resume, info', hroom⟩ := (l.expire key now).room_succeed now key socket info
    rw [← openSocket_eq] at hroom
    have hevents : (l.openSocket key socket info now).room.events = l.room.events ++ events := by
      rw [hroom, ← he]
      rfl
    have hlogged : l.logged ⟨now, .openSocket key socket info⟩ = events := logged_eq hevents
    have hphase : (l.openSocket key socket info now).room.phase? =
        (l.expire key now).room.phase?.pass (.opened key) := by
      rw [hroom]
      exact funext fun k => phase?_seated ..
    refine ⟨hlogged ▸ hevents, ?_⟩
    rw [milestones, hlogged]
    change l.room.phase?.Leads _ (l.openSocket key socket info now).room.phase?
    rw [hphase]
    exact hl.trans (.single trivial)
  | receive key frame =>
    exact hquiet _ (l.recounts_receive now key frame) rfl rfl (List.append_nil _)
  | connect key request =>
    exact hquiet _ (l.recounts_connect now key request) rfl rfl (List.append_nil _)
  | push key push =>
    exact hquiet _ (l.recounts_receivePush now key push) rfl rfl (List.append_nil _)
  | socketClosed key socket =>
    exact hquiet _ (l.recounts_socketClosed now key socket) rfl rfl (List.append_nil _)
  | kick key => exact hquiet _ (l.recounts_kick now key) rfl rfl (List.append_nil _)
  | tick =>
    exact hquiet _ (l.recounts_swept now) rfl (List.append_nil _) (List.append_nil _)
  | takeEvents => exact hquiet _ (.refl _) rfl (List.append_nil _) (List.append_nil _)

/-- All that the calls of a host lead to, in order. -/
def story (l : LiveRoom σ) : List Call → List Milestone
  | [] => []
  | call :: rest => l.milestones call ++ (l.perform call).story rest

def collected (l : LiveRoom σ) : List Call → List LifecycleEvent
  | [] => []
  | call :: rest => l.returned call ++ (l.perform call).collected rest

theorem leads_story (calls : List Call) :
    l.room.phase?.Leads (l.story calls) (l.run calls).room.phase? := by
  induction calls generalizing l with
  | nil => exact .nil _
  | cons call rest ih => exact (l.leads_milestones call).2.trans (ih (l.perform call))

theorem events_milestones (call : Call) :
    (l.milestones call).filterMap Milestone.event? = l.logged call := by
  have htold : ∀ events : List LifecycleEvent,
      (events.map Milestone.told).filterMap Milestone.event? = events := by
    intro events
    rw [List.filterMap_map]
    exact List.filterMap_some
  obtain ⟨now, operation⟩ := call
  cases operation <;> simp [milestones, htold, Milestone.event?]

theorem events_story (calls : List Call) :
    l.collected calls ++ (l.run calls).room.events =
      l.room.events ++ (l.story calls).filterMap Milestone.event? := by
  induction calls generalizing l with
  | nil => exact (List.append_nil _).symm
  | cons call rest ih =>
    have hcall := (l.leads_milestones call).1
    calc l.collected (call :: rest) ++ (l.run (call :: rest)).room.events
      _ = l.returned call ++ ((l.perform call).collected rest ++
            ((l.perform call).run rest).room.events) := List.append_assoc ..
      _ = l.returned call ++ (l.perform call).room.events ++
            ((l.perform call).story rest).filterMap Milestone.event? := by
          rw [ih, List.append_assoc]
      _ = l.room.events ++ (l.story (call :: rest)).filterMap Milestone.event? := by
          rw [hcall, story, List.filterMap_append, events_milestones, List.append_assoc]

end LiveRoom

/-- The lifecycle events of a room tell all that becomes of its sessions, whatever is done with it:
replayed from the beginning, with each opened socket after the events of its call, they lead to the
phases of the sessions; each of them fits the phase of its session; and they are those that the host
was given, followed by those that it can still take. -/
theorem story_tells_phases {σ : Type} [Host σ] (config : Config) (store : Store) (host : σ)
    (calls : List LiveRoom.Call) :
    let start : LiveRoom σ := ⟨.withStore config store, host⟩
    let nobody : Phases := fun _ => none
    (∀ key, nobody.replay (start.story calls) key = (start.run calls).room.phase? key) ∧
      (∀ before m after, start.story calls = before ++ m :: after →
        m.Fits (nobody.replay before m.key)) ∧
      (start.story calls).filterMap Milestone.event? =
        start.collected calls ++ (start.run calls).room.events := by
  intro start nobody
  have hleads : nobody.Leads (start.story calls) (start.run calls).room.phase? :=
    start.leads_story calls
  have horderly := hleads.orderly
  refine ⟨fun key => congrFun hleads.replay key, fun before m after he => ?_,
    (start.events_story calls).symm⟩
  rw [he] at horderly
  exact horderly.fits

/-- A client that comes back too late gets a session of its own. -/
example :
    let start : LiveRoom Unit := ⟨.new {}, ()⟩
    start.story [⟨0, .openSocket "a" 0 .null⟩,
      ⟨0, .connect "a" ⟨"a", "presence:a", ⟨1, []⟩, none⟩⟩, ⟨5, .socketClosed "a" 0⟩,
      ⟨20000, .openSocket "a" 1 .null⟩] =
    [.opened "a", .told (.connected "a" false), .told (.cancelled "a" .socketClosed),
      .told (.removed "a" .removalGrace), .opened "a"] := by
  decide +kernel

end RoomSync
