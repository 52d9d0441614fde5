import RoomSync.Proofs.Room.Ledger

namespace RoomSync

open Table Room

/-- A patch leads from the clock of its outbox to the next one, and nothing is merged that does not
follow one another. -/
def OutboxUse.InOrder (o : Outbox) : OutboxUse → Prop
  | .post (.patch p) => p.fromClock = o.lastSent ∧ p.toClock = p.fromClock + 1
  | .post (.pushResult _) => True
  | .flush => coalesce? o.held = some (coalesce o.held)

def OutboxEvent.InOrder (event : OutboxEvent) : Prop := event.use.InOrder event.outbox

/-- Each connected session is at the clock of the room, and so is the end of what is held back for
it, where each patch starts at the end of the one before. -/
def Room.InStep (r : Room) : Prop :=
  ∀ key c, r.connected? key = some c → c.outbox.lastSent = r.clock ∧
    (∀ before p q after, c.outbox.held = before ++ .patch p :: .patch q :: after → p.chains q) ∧
    coalesce? c.outbox.held = some (coalesce c.outbox.held)

theorem Room.Current.inStep {r : Room} (h : r.Current) : r.InStep := by
  intro key c hc
  have hup : c.outbox.UpTo r.clock := h key c.outbox (by rw [outbox?, hc]; rfl)
  obtain ⟨first, hheld⟩ := hup.held
  exact ⟨hup.lastSent, fun _ _ _ _ he => (he ▸ hheld).chains, hheld.coalesce.1⟩

/-- The sessions with the given keys are still at an earlier clock, and the others at that of the
room. -/
def Room.Lags (r : Room) (keys : List String) (clock : Nat) : Prop :=
  ∀ key o, r.outbox? key = some o →
    (key ∈ keys → o.UpTo clock) ∧ (key ∉ keys → o.UpTo r.clock)

namespace LiveRoom

variable {σ : Type} [Host σ] {l l' l'' : LiveRoom σ} {now : Nat} {key : String}

/-- There is a way from one state to another one on which all is done in order. -/
def Orderly (l l' : LiveRoom σ) : Prop := ∃ log, Course log l l' ∧ ∀ event ∈ log, event.InOrder

namespace Orderly

theorem refl (l : LiveRoom σ) : Orderly l l := ⟨[], .refl l, List.forall_mem_nil _⟩

theorem trans (h : Orderly l l') (h' : Orderly l' l'') : Orderly l l'' := by
  obtain ⟨log, hcourse, horder⟩ := h
  obtain ⟨new, hcourse', horder'⟩ := h'
  exact ⟨log ++ new, hcourse.trans hcourse', List.forall_mem_append.2 ⟨horder, horder'⟩⟩

theorem aside (h : Aside l l') : Orderly l l' :=
  ⟨[], (Course.refl l).aside h, List.forall_mem_nil _⟩

theorem trims {r : Room} (hconfig : r.config = l.room.config)
    (h : ∀ key o, r.outbox? key = some o → l.room.outbox? key = some o) : Orderly l ⟨r, l.host⟩ :=
  .aside (.trims hconfig h)

theorem use {use : Outbox → OutboxUse}
    (h : ∀ o, l.room.outbox? key = some o → (use o).InOrder o) :
    Orderly l (useOutbox use now l key).live := by
  refine ⟨_, (Course.refl l).uses use now key, fun event hevent => ?_⟩
  cases hc : l.room.connected? key with
  | none =>
    rw [useOutbox_of_none hc] at hevent
    cases hevent
  | some c =>
    obtain ⟨_, _, _, -, hlog, -⟩ := useOutbox_cases hc use now
    rw [hlog] at hevent
    obtain rfl := List.mem_singleton.1 hevent
    exact h c.outbox (by rw [outbox?, hc]; rfl)

theorem cancel (l : LiveRoom σ) (key : String) (cause : CancelCause) (now : Nat) :
    Orderly l (l.cancel key cause now) := by
  have htrims := (l.trims_cancel key cause now).outboxes
  have hconfig := (l.steady_cancel key cause now).config
  cases hs : l.room.session? key with
  | none =>
    rw [l.cancel_of_none cause now hs]
    exact .refl l
  | some s =>
    by_cases hc : ∃ c, s.state = .connected c
    · obtain ⟨c, hc⟩ := hc
      rw [l.cancel_of_connected cause now hs hc] at htrims hconfig ⊢
      exact (Orderly.trims hconfig htrims).trans (.aside (.closes _ c.socket))
    · have hno : ∀ c, s.state ≠ .connected c := fun c h => hc ⟨c, h⟩
      rw [l.cancel_of_not_connected cause now hs hno] at htrims hconfig ⊢
      exact .trims hconfig htrims

theorem sendFrame (l : LiveRoom σ) (key : String) (socket : SocketId) {msg : ServerMessage}
    (hmsg : msg.isNotice = true) (now : Nat) : Orderly l (l.sendFrame key socket msg now) := by
  have htell : Orderly l (l.tell socket msg) := .aside (.tells l socket hmsg)
  obtain ⟨-, he⟩ | ⟨-, cause, he⟩ := @sendFrame_cases _ l _ key now socket msg <;> rw [he]
  · exact htell
  · exact htell.trans (.cancel _ key cause now)

theorem pong (l : LiveRoom σ) (key : String) (now : Nat) : Orderly l (l.pong key now) := by
  unfold LiveRoom.pong
  split
  · exact .sendFrame l key _ rfl now
  · exact .refl l

theorem left (l : LiveRoom σ) (key : String) (s : Session) : Orderly l (l.left key s) := by
  have hforget : Orderly l (l.forget key) := .trims rfl (l.room.trims_without key).outboxes
  unfold LiveRoom.left
  cases s.socket? with
  | none => exact hforget
  | some socket => exact hforget.trans (.aside (.closes _ socket))

theorem succeed (l : LiveRoom σ) (key : String) (socket : SocketId) (info : Content) (now : Nat) :
    Orderly l (l.succeed key socket info now) := by
  unfold LiveRoom.succeed
  split
  · exact .trims rfl (trims_seated rfl).outboxes
  · rename_i old _
    cases old.socket? with
    | none => exact .trims rfl (trims_seated rfl).outboxes
    | some previous =>
      have hclose : Orderly l (l.close previous) := .aside (.closes l previous)
      exact hclose.trans (.trims rfl (trims_seated rfl).outboxes)

theorem welcome (hnone : l.room.session? key = none) (s : Session) (waiting : Waiting)
    (request : ConnectRequest) (now : Nat) :
    Orderly l (l.welcome key s waiting request now) := by
  let room := (l.room.seated key (l.guest s waiting request now)).note
    (.connected key waiting.resume.isSome)
  let guest := waiting.accept request.schema l.room.clock now
  have hunseated : l.room.connected? key = none := by rw [connected?, hnone]; rfl
  have hguest : room.connected? key = some guest :=
    connected?_eq_some.2 ⟨_, (session?_seated ..).trans (if_pos rfl), rfl⟩
  have hothers (k : String) (o : Outbox) (hk : k ≠ key) (ho : room.outbox? k = some o) :
      l.room.outbox? k = some o :=
    (outbox?_guest ho).elim And.right fun h => absurd h.1 hk
  have htold : Orderly l (tell ⟨room, l.host⟩ guest.socket (.connected (l.offer waiting request))) :=
    .aside (.admits now rfl hunseated hguest rfl rfl hothers)
  change Orderly l (LiveRoom.sendFrame ⟨room, l.host⟩ key waiting.socket
    (.connected (l.offer waiting request)) now)
  obtain ⟨-, he⟩ | ⟨-, cause, he⟩ := @sendFrame_cases _ ⟨room, l.host⟩ _ key now waiting.socket
    (.connected (l.offer waiting request)) <;> rw [he]
  · exact htold
  · exact htold.trans (.cancel _ key cause now)

end Orderly

theorem lags_sendPatch {changes : Changes} {clock : Nat} {rest : List String}
    (hkey : key ∉ rest) (h : l.room.Lags (key :: rest) clock) :
    (sendPatch changes now l key).room.Lags rest clock := by
  have hsame := (l.steady_sendPatch changes now key).clock
  have hother : ∀ k o, k ≠ key → l.room.outbox? k = some o →
      (k ∈ rest → o.UpTo clock) ∧ (k ∉ rest → o.UpTo l.room.clock) := fun k o hk ho =>
    ⟨fun hm => (h k o ho).1 (List.mem_cons_of_mem _ hm),
      fun hm => (h k o ho).2 fun hm' => (List.mem_cons.1 hm').elim hk hm⟩
  intro k o ho
  rw [hsame]
  obtain ⟨hk, ho⟩ | ⟨rfl, o', ho', hadmits⟩ := outbox?_sendPatch ho
  · exact hother k o hk ho
  · have hup := (h k o' ho').1 List.mem_cons_self
    have hstart : (DataMessage.patch (o'.patchTo l.room.clock changes)).StartsAt clock :=
      hup.lastSent
    exact ⟨fun hm => absurd hm hkey, fun _ => hup.admits hstart hadmits⟩

theorem current_patches {changes : Changes} {clock : Nat} (hclock : l.room.clock = clock + 1)
    {keys : List String} (hnodup : keys.Nodup) (h : l.room.Lags keys clock) :
    (keys.foldl (sendPatch changes now) l).room.Current ∧
      Orderly l (keys.foldl (sendPatch changes now) l) := by
  induction keys generalizing l with
  | nil => exact ⟨fun key o ho => (h key o ho).2 List.not_mem_nil, .refl l⟩
  | cons key rest ih =>
    obtain ⟨hkey, hrest⟩ := List.nodup_cons.1 hnodup
    have hsame : (sendPatch changes now l key).room.clock = l.room.clock :=
      congrArg Store.clock (l.steady_sendPatch changes now key).store
    have hpatch : Orderly l (sendPatch changes now l key) := by
      rw [← live_tracedPatch]
      refine .use fun o ho => ⟨rfl, ?_⟩
      have hlast := ((h key o ho).1 List.mem_cons_self).lastSent
      change l.room.clock = o.lastSent + 1
      omega
    obtain ⟨hcurrent, horderly⟩ := ih (hsame.trans hclock) hrest (lags_sendPatch hkey h)
    exact ⟨hcurrent, hpatch.trans horderly⟩

theorem current_broadcast {clock : Nat} (hclock : l.room.clock = clock + 1) (changes : Changes)
    (except : Option String) (now : Nat)
    (h : ∀ key o, l.room.outbox? key = some o →
      (some key ≠ except → o.UpTo clock) ∧ (some key = except → o.UpTo l.room.clock)) :
    (l.broadcast changes except now).room.Current ∧ Orderly l (l.broadcast changes except now) := by
  let targets := l.room.connectedKeys.filter fun key => some key ≠ except
  have hperm : (Host.visit l.host targets).Perm targets := Host.visit_perm ..
  have hlags : l.room.Lags (Host.visit l.host targets) clock := by
    intro key o ho
    have hmem : key ∈ Host.visit l.host targets ↔ some key ≠ except := by
      rw [hperm.mem_iff, List.mem_filter, decide_eq_true_eq]
      exact and_iff_right (mem_connectedKeys_of_outbox? ho)
    rw [hmem, Decidable.not_not]
    exact h key o ho
  exact current_patches hclock (hperm.nodup_iff.2 ((keys_nodup _).filter _)) hlags

theorem dropPresence?_cases (l : LiveRoom σ) (id? : Option RecordId) (now : Nat) :
    l.dropPresence? id? now = l ∨
      ∃ changes, (l.room.dropped id?).clock = l.room.clock + 1 ∧
        l.dropPresence? id? now = broadcast ⟨l.room.dropped id?, l.host⟩ changes none now := by
  cases id? with
  | none => exact .inl rfl
  | some id =>
    by_cases hid : l.room.presence.contains id = true
    · refine .inr ⟨Table.empty.insert id .remove, ?_, ?_⟩
      · rw [Room.dropped, if_pos hid]
        rfl
      · rw [dropPresence?, dropPresence, if_pos hid, Room.dropped, if_pos hid]
    · exact .inl (if_neg hid)

theorem current_dropPresence? (h : l.room.Current) (id? : Option RecordId) (now : Nat) :
    (l.dropPresence? id? now).room.Current ∧ Orderly l (l.dropPresence? id? now) := by
  obtain he | ⟨changes, hclock, he⟩ := l.dropPresence?_cases id? now <;> rw [he]
  · exact ⟨h, .refl l⟩
  · have hsame : ∀ key, (l.room.dropped id?).outbox? key = l.room.outbox? key := fun key =>
      outbox?_congr (l.room.session?_dropped id? key)
    have hdropped : Orderly l ⟨l.room.dropped id?, l.host⟩ :=
      .trims (l.room.config_dropped id?) fun key o ho => hsame key ▸ ho
    obtain ⟨hcurrent, horderly⟩ := current_broadcast (l := ⟨l.room.dropped id?, l.host⟩) hclock
      changes none now fun key o ho =>
        ⟨fun _ => h key o (hsame key ▸ ho), fun he => absurd he (Option.some_ne_none key)⟩
    exact ⟨hcurrent, hdropped.trans horderly⟩

theorem current_remove (h : l.room.Current) (key : String) (cause : RemovalCause) :
    (l.remove key cause now).room.Current ∧ Orderly l (l.remove key cause now) := by
  cases hs : l.room.session? key with
  | none =>
    rw [remove, hs]
    exact ⟨h, .refl l⟩
  | some s =>
    have hleft : (l.left key s).room.Current := by
      rw [room_left]
      exact h.trims (l.room.trims_without key)
    rw [remove_eq hs]
    obtain ⟨hcurrent, horderly⟩ := current_dropPresence? hleft s.presenceId now
    exact ⟨hcurrent, ((Orderly.left l key s).trans horderly).trans (.trims rfl fun _ _ ho => ho)⟩

theorem session?_readied (key : String) (s : Session) (request : ConnectRequest) (now : Nat) :
    (l.readied key s request now).room.session? key = none := by
  refine Option.eq_none_iff_forall_not_mem.2 fun s' hs' => ?_
  have hsteady := steady_dropPresence? (l.forget key)
    (s.presenceId.filter fun old => old ≠ request.presenceId) now
  obtain ⟨t, ht, -⟩ := hsteady.sessions key s' hs'
  rw [session?_dropped] at ht
  change (l.room.without key).session? key = some t at ht
  rw [session?_without, if_pos rfl] at ht
  cases ht

theorem current_accept (h : l.room.Current) (key : String) (s : Session) (waiting : Waiting)
    (request : ConnectRequest) :
    (l.accept key s waiting request now).1.room.Current ∧
      Orderly l (l.accept key s waiting request now).1 := by
  have hforget : (l.forget key).room.Current := h.trims (l.room.trims_without key)
  have hforgets : Orderly l (l.forget key) := .trims rfl (l.room.trims_without key).outboxes
  obtain ⟨hready, hreadies⟩ := current_dropPresence? hforget
    (s.presenceId.filter fun old => old ≠ request.presenceId) now
  have hnone := l.session?_readied key s request now
  rw [accept_eq]
  change (l.readied key s request now).room.Current at hready
  change Orderly (l.forget key) (l.readied key s request now) at hreadies
  generalize l.readied key s request now = ready at hready hreadies hnone
  refine ⟨fun k o ho => ?_, (hforgets.trans hreadies).trans ?_⟩
  · rw [(steady_welcome _ key s waiting request now).clock]
    obtain ⟨-, ho⟩ | ⟨-, rfl⟩ := outbox?_welcome ho
    · exact hready k o ho
    · exact Outbox.upTo_start _ now
  · exact .welcome hnone s waiting request now

/-- The part of a push that is done before the other sessions are told. -/
def answered (l : LiveRoom σ) (key : String) (own : Option RecordId) (push : Push) (now : Nat) :
    LiveRoom σ :=
  sendData { l with room := (l.room.applyPush own push).1 } key
    (.pushResult (l.room.answer own push)) now

theorem serve_eq (l : LiveRoom σ) (key : String) (own : Option RecordId) (push : Push)
    (now : Nat) :
    l.serve key own push now =
      if (l.room.applyPush own push).2.changes.isEmpty then l.answered key own push now
      else (l.answered key own push now).broadcast (l.room.applyPush own push).2.changes (some key)
        now := rfl

theorem outbox?_answered (h : l.room.Current) {k : String} {own : Option RecordId}
    {push : Push} {o : Outbox} (ho : (l.answered key own push now).room.outbox? k = some o) :
    (k ≠ key → o.UpTo l.room.clock) ∧
      (k = key → o.UpTo (l.answered key own push now).room.clock) := by
  have hsame : (l.answered key own push now).room.clock = (l.room.applyPush own push).1.clock :=
    (steady_sendData ..).clock
  have hold := l.room.outbox?_applyPush own push
  obtain ⟨hk, ho⟩ | ⟨hk, o', ho', hadmits⟩ := outbox?_sendData ho
  · exact ⟨fun _ => h k o (hold k ▸ ho), fun he => absurd he hk⟩
  · refine ⟨fun hne => absurd hk hne, fun _ => ?_⟩
    have hstart : (DataMessage.pushResult (l.room.answer own push)).StartsAt l.room.clock := trivial
    rw [hsame]
    exact (h key o' (hold key ▸ ho')).admits hstart hadmits

theorem orderly_answered (key : String) (own : Option RecordId) (push : Push) (now : Nat) :
    Orderly l (l.answered key own push now) := by
  have happlied : Orderly l ⟨(l.room.applyPush own push).1, l.host⟩ :=
    .trims (l.room.applyPush_frame own push).1 fun k o ho =>
      l.room.outbox?_applyPush own push k ▸ ho
  refine happlied.trans ?_
  rw [answered, ← live_post]
  exact .use fun _ _ => trivial

theorem current_serve (h : l.room.Current) (key : String) (own : Option RecordId) (push : Push) :
    (l.serve key own push now).room.Current ∧ Orderly l (l.serve key own push now) := by
  have hsame : (l.answered key own push now).room.clock = (l.room.applyPush own push).1.clock :=
    (steady_sendData ..).clock
  have hanswered := l.orderly_answered key own push now
  rw [serve_eq]
  by_cases hc : (l.room.applyPush own push).2.changes = Table.empty
  · have hroom : (l.room.applyPush own push).1 = l.room := applyPush_of_empty push hc
    rw [if_pos (isEmpty_iff.2 hc)]
    refine ⟨fun k o ho => ?_, hanswered⟩
    by_cases hk : k = key
    · exact (outbox?_answered h ho).2 hk
    · rw [hsame, hroom]
      exact (outbox?_answered h ho).1 hk
  · have hclock : (l.answered key own push now).room.clock = l.room.clock + 1 :=
      hsame.trans (shift_applyPush push hc).clock
    rw [if_neg fun he => hc (isEmpty_iff.1 he)]
    obtain ⟨hcurrent, hbroadcast⟩ := current_broadcast hclock (l.room.applyPush own push).2.changes
      (some key) now fun k o ho =>
        ⟨fun hk => (outbox?_answered h ho).1 fun he => hk (congrArg some he),
          fun hk => (outbox?_answered h ho).2 (Option.some.inj hk)⟩
    exact ⟨hcurrent, hanswered.trans hbroadcast⟩

theorem current_flushSession (h : l.room.Current) (key : String) :
    (flushSession now l key).room.Current ∧ Orderly l (flushSession now l key) := by
  refine ⟨fun k o ho => ?_, ?_⟩
  · rw [(l.steady_flushSession now key).clock]
    obtain ⟨-, ho⟩ | ⟨-, o', ho', rfl⟩ := outbox?_flushSession ho
    · exact h k o ho
    · exact (h key o' ho').flushDue now _
  · rw [← live_flush]
    refine .use fun o ho => ?_
    obtain ⟨first, hheld⟩ := (h key o ho).held
    exact hheld.coalesce.1

/-- After each turn everyone is at the clock of the room again, and all is done in order. -/
theorem Turn.proceeds {deed : Deed} (h : Turn now deed l l') (hc : l.room.Current) :
    l'.room.Current ∧ Orderly l l' := by
  cases h with
  | note => exact ⟨hc, .trims rfl fun _ _ ho => ho⟩
  | touch _ key =>
    have htrims := l.room.trims_touch key now
    exact ⟨hc.trims htrims, .trims (l.room.steady_touch key now).config htrims.outboxes⟩
  | cancel _ key cause => exact ⟨hc.trims (l.trims_cancel key cause now), .cancel l key cause now⟩
  | tell _ _ _ hmsg =>
    exact ⟨hc, .aside (.tells l _ hmsg)⟩
  | pong _ key => exact ⟨hc.trims (l.trims_pong key now), .pong l key now⟩
  | flush _ key => exact current_flushSession hc key
  | remove _ key cause => exact current_remove hc key cause
  | opens _ key socket info =>
    exact ⟨hc.trims (l.trims_succeed key socket info now), .succeed l key socket info now⟩
  | greets => exact current_accept hc ..
  | serves => exact current_serve hc ..

theorem Turn.current {deed : Deed} (h : Turn now deed l l') (hc : l.room.Current) :
    l'.room.Current := (h.proceeds hc).1

theorem current_run (h : l.room.Current) (calls : List Call) :
    (l.run calls).room.Current ∧ Orderly l (l.run calls) := by
  refine run_keeps (P := fun l' => l'.room.Current ∧ Orderly l l') ?_ ⟨h, .refl l⟩ calls
  rintro now deed l₁ l₂ hturn ⟨hcurrent, horderly⟩
  obtain ⟨hcurrent', horderly'⟩ := hturn.proceeds hcurrent
  exact ⟨hcurrent', horderly.trans horderly'⟩

theorem config_run (h : l.room.Current) (calls : List Call) :
    (l.run calls).room.config = l.room.config := by
  obtain ⟨-, log, hcourse, -⟩ := current_run h calls
  exact hcourse.config

theorem current_withStore (config : Config) (store : Store) : (withStore config store).Current := by
  intro key o ho
  cases (rfl : (withStore config store).outbox? key = none).symm.trans ho

/-- Whatever the host does with a room and whatever its sockets answer, no session falls behind
unnoticed: it is at the clock of the room or it is not connected, and on the way there each patch
was put into an outbox that was at the start of the patch, one clock below its end. The log accounts
for every outbox and for all data that any socket was handed. -/
theorem inStep_run (config : Config) (snapshot : Snapshot) (host : σ) (calls : List Call) :
    let start : LiveRoom (Journal σ) := ⟨.ofSnapshot config snapshot, .start host⟩
    let l := start.run calls
    l.room.InStep ∧ ∃ log, Course log start l ∧ (∀ event ∈ log, event.InOrder) ∧
      (∀ key o, l.room.outbox? key = some o → Accounted config key log o) ∧
      l.host.data = log.filterMap (·.dealing? config) := by
  intro start l
  obtain ⟨hcurrent, log, hcourse, horder⟩ := current_run (l := start) (current_withStore config _) calls
  exact ⟨hcurrent.inStep, log, hcourse, horder, fun _ _ ho => hcourse.accounted (fun _ => rfl) ho,
    hcourse.data⟩

end LiveRoom

end RoomSync
