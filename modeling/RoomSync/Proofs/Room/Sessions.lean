import RoomSync.Proofs.Room.Reception

namespace RoomSync

open Table Room

inductive Session.Ages : Session → Session → Prop
  | same (s : Session) : Ages s s
  | busy {presenceId : Option RecordId} {info : Content} {c c' : Connected} :
      c'.schema = c.schema → Ages ⟨presenceId, info, .connected c⟩ ⟨presenceId, info, .connected c'⟩
  | lost {presenceId : Option RecordId} {info : Content} {c : Connected} {since : Nat} :
      Ages ⟨presenceId, info, .connected c⟩ ⟨presenceId, info, .awaitingRemoval since⟩

namespace Session.Ages

variable {s s' s'' : Session}

theorem trans (h : s.Ages s') (h' : s'.Ages s'') : s.Ages s'' := by
  cases h with
  | same => exact h'
  | busy he =>
    cases h' with
    | same => exact .busy he
    | busy he' => exact .busy (he'.trans he)
    | lost => exact .lost
  | lost =>
    cases h'
    exact .lost

theorem mapConnected (s : Session) {f : Connected → Connected}
    (hf : ∀ c, (f c).schema = c.schema) : s.Ages (s.mapConnected f) := by
  obtain ⟨presenceId, info, state⟩ := s
  cases state with
  | connected c => exact .busy (hf c)
  | awaitingConnect w => exact .same _
  | awaitingRemoval since => exact .same _

theorem cancel {σ : Type} [Host σ] (s : Session) (host : σ) (now : Nat) :
    s.Ages (s.cancel host now).1 := by
  obtain ⟨presenceId, info, state⟩ := s
  cases state with
  | connected c => exact .lost
  | awaitingConnect w => exact .same _
  | awaitingRemoval since => exact .same _

theorem presenceId (h : s.Ages s') : s'.presenceId = s.presenceId := by
  cases h <;> rfl

theorem successor (h : s.Ages s') : s'.successor = s.successor := by
  cases h <;> rfl

theorem connected (h : s.Ages s') {c' : Connected} (hc' : s'.state = .connected c') :
    ∃ c, s.state = .connected c ∧ c'.schema = c.schema := by
  cases h with
  | same => exact ⟨c', hc', rfl⟩
  | busy he =>
    obtain rfl := SessionState.connected.inj hc'
    exact ⟨_, rfl, he⟩
  | lost => cases hc'

end Session.Ages

namespace Room

/-- No session is new, apart from the one under a given key, and no kicked session is forgotten. -/
structure Wanes (key? : Option String) (r r' : Room) : Prop where
  config : r'.config = r.config
  forbidden : r.forbidden ⊆ r'.forbidden
  sessions : ∀ key s', some key ≠ key? → r'.session? key = some s' →
    ∃ s, r.session? key = some s ∧ s.Ages s'

def Lapsed (r : Room) (key : String) (now : Nat) : Prop :=
  ∃ s since, r.session? key = some s ∧ s.state = .awaitingRemoval since ∧
    r.config.removalGrace ≤ now - since

variable {key? : Option String} {r r' r'' : Room}

namespace Wanes

theorem of_sessions (hconfig : r'.config = r.config) (hforbidden : r.forbidden ⊆ r'.forbidden)
    (hsessions : r'.sessions = r.sessions) : Wanes key? r r' :=
  ⟨hconfig, hforbidden, fun key s' _ hs' =>
    ⟨s', (congrArg (get? · key) hsessions).symm.trans hs', .same s'⟩⟩

theorem refl (r : Room) : Wanes key? r r := .of_sessions rfl (List.Subset.refl _) rfl

theorem trans (h : Wanes key? r r') (h' : Wanes key? r' r'') : Wanes key? r r'' := by
  refine ⟨h'.config.trans h.config, List.Subset.trans h.forbidden h'.forbidden, ?_⟩
  intro key s'' hne hs''
  obtain ⟨s', hs', hages'⟩ := h'.sessions key s'' hne hs''
  obtain ⟨s, hs, hages⟩ := h.sessions key s' hne hs'
  exact ⟨s, hs, hages.trans hages'⟩

theorem widen (h : Wanes none r r') : Wanes key? r r' :=
  ⟨h.config, h.forbidden, fun key s' _ => h.sessions key s' nofun⟩

end Wanes

theorem wanes_without (r : Room) (key : String) : Wanes key? r (r.without key) := by
  refine ⟨rfl, List.Subset.refl _, fun k s _ hs => ?_⟩
  rw [session?_without] at hs
  split at hs
  · cases hs
  · exact ⟨s, hs, .same s⟩

theorem wanes_seated (r : Room) (key : String) (s : Session) :
    Wanes (some key) r (r.seated key s) := by
  refine ⟨rfl, List.Subset.refl _, fun k t hne ht => ?_⟩
  rw [session?_seated, if_neg fun hk => hne (congrArg some hk)] at ht
  exact ⟨t, ht, .same t⟩

theorem wanes_modifySession (r : Room) (key : String) {f : Session → Session}
    (hf : ∀ s : Session, s.Ages (f s)) : Wanes none r (r.modifySession key f) := by
  refine ⟨rfl, List.Subset.refl _, fun k t _ ht => ?_⟩
  rw [session?_modifySession] at ht
  split at ht
  · obtain ⟨s, hs, rfl⟩ := Option.map_eq_some_iff.1 ht
    exact ⟨s, hs, hf s⟩
  · exact ⟨t, ht, .same t⟩

theorem wanes_touch (r : Room) (key : String) (now : Nat) :
    Wanes none r (r.modifySession key (·.touch now)) :=
  r.wanes_modifySession key fun s => .mapConnected s fun _ => rfl

theorem wanes_applyPush (r : Room) (own : Option RecordId) (push : Push) :
    Wanes none r (r.applyPush own push).1 := by
  obtain ⟨_, he, -⟩ | ⟨_, _, _, _, -, -, -, he⟩ := r.applyPush_cases own push <;> rw [he] <;>
    exact .of_sessions rfl (List.Subset.refl _) rfl

end Room

namespace LiveRoom

variable {σ : Type} [Host σ] (l : LiveRoom σ) (now : Nat) (key : String)

theorem wanes_cancel (cause : CancelCause) : Wanes none l.room (l.cancel key cause now).room := by
  unfold cancel
  cases hs : l.room.session? key with
  | none => exact .refl _
  | some s =>
    have hseat : Wanes none l.room (l.room.seated key (s.cancel l.host now).1) := by
      refine ⟨rfl, List.Subset.refl _, fun k t _ ht => ?_⟩
      rw [session?_seated] at ht
      split at ht
      · rename_i hk
        obtain rfl := Option.some.inj ht
        exact ⟨s, hk ▸ hs, .cancel s l.host now⟩
      · exact ⟨t, ht, .same t⟩
    change Wanes none l.room (if s.isConnected then _ else _ : Room)
    split
    · exact hseat.trans (.of_sessions rfl (List.Subset.refl _) rfl)
    · exact hseat

theorem delivery_wanes : Delivery now fun l l' : LiveRoom σ => Wanes none l.room l'.room where
  refl _ := .refl _
  trans := .trans
  tell _ _ _ := .refl _
  setOutbox l key _ := l.room.wanes_modifySession key fun s => .mapConnected s fun _ => rfl
  cancel l := l.wanes_cancel now

theorem wanes_dropPresence? (id? : Option RecordId) :
    Wanes none l.room (l.dropPresence? id? now).room := by
  obtain ⟨-, -, hforbidden⟩ := l.room.dropped_frame id?
  have hdropped : Wanes none l.room (l.room.dropped id?) :=
    .of_sessions (l.room.config_dropped id?) (hforbidden ▸ List.Subset.refl _)
      (l.room.sessions_dropped id?)
  exact hdropped.trans ((delivery_wanes now).dropPresence? l id?)

theorem wanes_remove (cause : RemovalCause) : Wanes none l.room (l.remove key cause now).room := by
  cases hs : l.room.session? key with
  | none =>
    rw [remove, hs]
    exact .refl _
  | some s =>
    have hdropped := (l.left key s).wanes_dropPresence? now s.presenceId
    rw [l.room_left key s] at hdropped
    rw [remove_eq hs]
    exact ((l.room.wanes_without key).trans hdropped).trans
      (.of_sessions rfl (List.Subset.refl _) rfl)

theorem upkeep_wanes : Upkeep now fun l l' : LiveRoom σ => Wanes none l.room l'.room where
  refl _ := .refl _
  trans := .trans
  note _ _ _ hforbidden := .of_sessions rfl hforbidden rfl
  cancel l := l.wanes_cancel now
  remove l := l.wanes_remove now
  flush l := (delivery_wanes now).flushSession l

theorem wanes_serve (own : Option RecordId) (push : Push) :
    Wanes none l.room (l.serve key own push now).room := by
  have hanswered := (delivery_wanes now).sendData ⟨(l.room.applyPush own push).1, l.host⟩ key
    (.pushResult (l.room.answer own push))
  refine (l.room.wanes_applyPush own push).trans ?_
  unfold serve
  dsimp only
  split
  · exact hanswered
  · exact hanswered.trans ((delivery_wanes now).broadcast _ _ (some key))

theorem wanes_receivePush (push : Push) : Wanes none l.room (l.receivePush key push now).1.room := by
  obtain ⟨_, -, he⟩ | ⟨s, hs, hc, hkey⟩ := l.receivePush_cases now key push
  · rw [he]
    exact .refl _
  · rw [l.receivePush_of_connected now hs hc hkey]
    exact (l.room.wanes_touch key now).trans (wanes_serve ⟨_, l.host⟩ now key _ push)

theorem expire_of_lapsed (h : l.room.Lapsed key now) :
    (l.expire key now).room.session? key = none := by
  obtain ⟨s, since, hs, hstate, hgrace⟩ := h
  have hexpired : l.expire key now = l.remove key .removalGrace now := by
    rw [expire, hs]
    dsimp only
    rw [if_pos (by simp [Session.phase, Session.resumable, hstate, hgrace])]
  rw [hexpired]
  exact l.session?_remove now key _

theorem expire_of_not_lapsed (h : ¬l.room.Lapsed key now) : l.expire key now = l := by
  unfold expire
  split
  · rename_i s hs
    split
    · rename_i hexpired
      refine absurd ?_ h
      obtain ⟨presenceId, info, state⟩ := s
      cases state with
      | awaitingRemoval since =>
        exact ⟨_, since, hs, rfl, by simpa [Session.phase, Session.resumable] using hexpired⟩
      | awaitingConnect w => cases hexpired
      | connected c => cases hexpired
    · rfl
  · rfl

theorem session?_succeed (socket : SocketId) (info : Content) :
    ∃ info', (l.succeed key socket info now).room.session? key =
      some (.start socket now ((l.room.session? key).bind Session.successor) info') := by
  cases hs : l.room.session? key with
  | none =>
    rw [succeed_of_none hs]
    exact ⟨info, (session?_seated ..).trans (if_pos rfl)⟩
  | some old =>
    obtain ⟨info', he⟩ := succeed_of_some hs socket info now
    rw [he]
    exact ⟨info', (session?_seated ..).trans (if_pos rfl)⟩

theorem wanes_openSocket (socket : SocketId) (info : Content) :
    Wanes (some key) l.room (l.openSocket key socket info now).room := by
  rw [openSocket_eq]
  refine ((upkeep_wanes now).expire l key).widen.trans ?_
  generalize l.expire key now = l
  cases hs : l.room.session? key with
  | none =>
    rw [succeed_of_none hs]
    exact l.room.wanes_seated key _
  | some old =>
    obtain ⟨info', he⟩ := succeed_of_some hs socket info now
    rw [he]
    exact l.room.wanes_seated key _

variable {key}

theorem wanes_accept (s : Session) (waiting : Waiting) (request : ConnectRequest) :
    Wanes (some key) l.room (l.accept key s waiting request now).1.room := by
  rw [accept_eq]
  have hforgotten : Wanes none l.room (l.forget key).room := l.room.wanes_without key
  have hready := hforgotten.trans ((l.forget key).wanes_dropPresence? now
    (s.presenceId.filter fun old => old ≠ request.presenceId))
  refine hready.widen.trans ?_
  change Wanes (some key) (l.readied key s request now).room _
  generalize l.readied key s request now = l
  refine (l.room.wanes_seated key (l.guest s waiting request now)).trans (Wanes.widen ?_)
  have hnoted : Wanes none (l.room.seated key (l.guest s waiting request now))
      ((l.room.seated key (l.guest s waiting request now)).note
        (.connected key waiting.resume.isSome)) :=
    .of_sessions rfl (List.Subset.refl _) rfl
  exact hnoted.trans ((delivery_wanes now).sendFrame ⟨_, l.host⟩ key waiting.socket _)

theorem session?_accept (key : String) (s : Session) (waiting : Waiting)
    (request : ConnectRequest) :
    ∃ s', (l.accept key s waiting request now).1.room.session? key = some s' ∧
      ((l.readied key s request now).guest s waiting request now).Ages s' := by
  rw [accept_eq]
  generalize l.readied key s request now = l
  let guest := l.guest s waiting request now
  let l₁ : LiveRoom σ :=
    ⟨(l.room.seated key guest).note (.connected key waiting.resume.isSome), l.host⟩
  have hguest : (l.room.seated key guest).session? key = some guest :=
    (session?_seated ..).trans (if_pos rfl)
  have hsent := (delivery_wanes now).sendFrame l₁ key waiting.socket
    (.connected (l.offer waiting request))
  obtain ⟨s', hs', -⟩ := (l.steady_welcome key s waiting request now).session hguest
  obtain ⟨t, ht, hages⟩ := hsent.sessions key s' nofun hs'
  obtain rfl := Option.some.inj (hguest.symm.trans ht)
  exact ⟨s', hs', hages⟩

/-- What becomes of a session in a call. -/
inductive Fate (l : LiveRoom σ) (call : Call) (key : String) (l' : LiveRoom σ) : Prop
  | stays : (¬∃ socket info, call.operation = .openSocket key socket info) →
      (¬∃ request accepted, l.Accepts call key request accepted) →
      (∀ s', l'.room.session? key = some s' → ∃ s, l.room.session? key = some s ∧ s.Ages s') →
      Fate l call key l'
  | opened {socket : SocketId} {info info' : Content} {resume : Option Resume} :
      call.operation = .openSocket key socket info →
      l'.room.session? key = some (.start socket call.now resume info') →
      (l.room.Lapsed key call.now → resume = none) →
      (¬l.room.Lapsed key call.now → resume = (l.room.session? key).bind Session.successor) →
      Fate l call key l'
  | joined {request : ConnectRequest} {accepted : Accepted} {c : Connected} {s s' : Session} :
      l.Accepts call key request accepted → l'.room.session? key = some s' →
      s.presenceId = some request.presenceId → s.state = .connected c →
      c.schema = request.schema → s.Ages s' → Fate l call key l'

variable {l} {call : Call}

theorem Fate.connected {l' : LiveRoom σ} (h : l.Fate call key l') {c' : Connected}
    (hc' : l'.room.connected? key = some c') :
    (∃ c, l.room.connected? key = some c ∧ c'.schema = c.schema) ∨
      ∃ request accepted, l.Accepts call key request accepted ∧ c'.schema = request.schema := by
  obtain ⟨s', hs', hstate'⟩ := connected?_eq_some.1 hc'
  cases h with
  | stays _ _ hstays =>
    obtain ⟨s, hs, hages⟩ := hstays s' hs'
    obtain ⟨c, hstate, hschema⟩ := hages.connected hstate'
    exact .inl ⟨c, connected?_eq_some.2 ⟨s, hs, hstate⟩, hschema⟩
  | opened _ hstart =>
    obtain rfl := Option.some.inj (hstart.symm.trans hs')
    cases hstate'
  | joined haccepts hjoined _ hstate hschema hages =>
    obtain rfl := Option.some.inj (hjoined.symm.trans hs')
    obtain ⟨c, hc, hsame⟩ := hages.connected hstate'
    obtain rfl := SessionState.connected.inj (hstate.symm.trans hc)
    exact .inr ⟨_, _, haccepts, hsame.trans hschema⟩

theorem Accepts.wanes {request : ConnectRequest} {accepted : Accepted}
    (h : l.Accepts call key request accepted) :
    Wanes (some key) l.room (l.perform call).room := by
  obtain ⟨s, waiting, -, he, -⟩ := h.perform
  exact he ▸ l.wanes_accept call.now s waiting request

theorem perform_wanes (l : LiveRoom σ) (call : Call) :
    ∃ key?, Wanes key? l.room (l.perform call).room ∧ ∀ key, key? = some key →
      (∃ socket info, call.operation = .openSocket key socket info) ∨
        ∃ request accepted, l.Accepts call key request accepted := by
  have hnone : Wanes none l.room (l.perform call).room →
      ∃ key?, Wanes key? l.room (l.perform call).room ∧ ∀ key, key? = some key →
        (∃ socket info, call.operation = .openSocket key socket info) ∨
          ∃ request accepted, l.Accepts call key request accepted := fun h => ⟨none, h, nofun⟩
  have haccepts : ∀ {k request accepted}, l.Accepts call k request accepted →
      ∃ key?, Wanes key? l.room (l.perform call).room ∧ ∀ key, key? = some key →
        (∃ socket info, call.operation = .openSocket key socket info) ∨
          ∃ request accepted, l.Accepts call key request accepted :=
    fun ha => ⟨_, ha.wanes, fun key hk => .inr (Option.some.inj hk ▸ ⟨_, _, ha⟩)⟩
  obtain ⟨now, operation⟩ := call
  cases operation with
  | openSocket key socket info =>
    exact ⟨some key, l.wanes_openSocket now key socket info,
      fun k hk => .inl (Option.some.inj hk ▸ ⟨socket, info, rfl⟩)⟩
  | socketClosed key socket => exact hnone ((upkeep_wanes now).socketClosed l key socket)
  | tick => exact hnone ((upkeep_wanes now).tick l)
  | kick key => exact hnone ((upkeep_wanes now).kick l key)
  | takeEvents => exact hnone ((upkeep_wanes now).takeEvents l)
  | push key push => exact hnone (l.wanes_receivePush now key push)
  | connect key request =>
    obtain ⟨accepted, ha⟩ | he | ⟨socket, msg, cause, he⟩ :=
      accepts_or_repels l ⟨now, .connect key request⟩ rfl
    · exact haccepts ha
    · exact hnone (he.symm ▸ .refl _)
    · exact hnone (he ▸ wanes_remove (l.tell socket msg) now key cause)
  | receive key frame =>
    have hr := l.reception key frame now
    generalize hanswer : l.receive key frame now = answer at hr
    have hl : l.perform ⟨now, .receive key frame⟩ = answer.1 := congrArg Prod.fst hanswer
    cases hr with
    | unknown | ignored => exact hnone (hl ▸ .refl _)
    | @ended _ socket msg cause =>
      exact hnone (hl ▸ wanes_remove (l.tell socket msg) now key cause)
    | serves => exact hnone (hl ▸ l.wanes_receivePush now key _)
    | pongs =>
      have htouched := l.room.wanes_touch key now
      exact hnone (hl ▸ htouched.trans ((delivery_wanes now).pong ⟨_, l.host⟩ key))
    | greets hd ha =>
      refine haccepts ⟨?_, congrArg Prod.snd (ha.connect now)⟩
      rw [Operation.deed, hd]
      rfl

theorem fate (l : LiveRoom σ) (call : Call) (key : String) : l.Fate call key (l.perform call) := by
  by_cases hopen : ∃ socket info, call.operation = .openSocket key socket info
  · obtain ⟨socket, info, hopen⟩ := hopen
    obtain ⟨info', hstart⟩ := (l.expire key call.now).session?_succeed call.now key socket info
    have hperform : l.perform call = (l.expire key call.now).succeed key socket info call.now := by
      rw [perform, hopen, ← openSocket_eq]
    rw [← hperform] at hstart
    refine .opened hopen hstart (fun h => ?_) fun h => ?_
    · rw [l.expire_of_lapsed call.now key h]
      rfl
    · rw [l.expire_of_not_lapsed call.now key h]
  · by_cases hjoin : ∃ request accepted, l.Accepts call key request accepted
    · obtain ⟨request, accepted, ha⟩ := hjoin
      obtain ⟨s, waiting, -, hperform, -⟩ := ha.perform
      obtain ⟨s', hs', hages⟩ := l.session?_accept call.now key s waiting request
      exact .joined ha (hperform ▸ hs') rfl rfl rfl hages
    · obtain ⟨key?, hwanes, hnew⟩ := l.perform_wanes call
      refine .stays hopen hjoin fun s' => hwanes.sessions key s' fun hk => ?_
      exact (hnew key hk.symm).elim hopen hjoin

end LiveRoom

end RoomSync
