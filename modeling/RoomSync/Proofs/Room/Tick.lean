import RoomSync.Network
import RoomSync.Proofs.Room.InStep
import RoomSync.Proofs.Room.Mishaps

namespace RoomSync

open Table Room

def Expiry.HasRunOut (config : Config) (now : Nat) (s : Session) : Expiry → Prop
  | .startTimeout => ∃ w, s.state = .awaitingConnect w ∧ config.startTimeout ≤ now - w.startedAt
  | .idle => ∃ c, s.state = .connected c ∧ config.idleTimeout ≤ now - c.lastInteraction
  | .removalGrace => ∃ since, s.state = .awaitingRemoval since ∧ config.removalGrace ≤ now - since

theorem Session.expiry?_eq_some {s : Session} {now : Nat} {config : Config} {expiry : Expiry} :
    s.expiry? now config = some expiry ↔ expiry.HasRunOut config now s := by
  obtain ⟨presenceId, info, state⟩ := s
  cases state <;> cases expiry <;> simp [Session.expiry?, Expiry.HasRunOut]

theorem Session.Fares.expiry? {s s' : Session} {now : Nat} {config : Config} {lost : Prop}
    (hgrace : config.removalGrace ≠ 0) (hidle : s.expiry? now config = some .idle → lost)
    (hstays : ∀ expiry, s.expiry? now config = some expiry → expiry = .idle)
    (h : s.Fares now lost s') : s'.expiry? now config = none := by
  refine Option.eq_none_iff_forall_ne_some.2 fun expiry he => ?_
  cases h with
  | apart hno =>
    obtain rfl := hstays expiry he
    obtain ⟨c, hc, -⟩ := expiry?_eq_some.1 he
    exact hno c hc
  | @stays c outbox hkept hc =>
    cases expiry with
    | startTimeout =>
      obtain ⟨w, hw, -⟩ := expiry?_eq_some.1 he
      cases hw
    | idle =>
      obtain ⟨c', hc', hlate⟩ := expiry?_eq_some.1 he
      obtain rfl := SessionState.connected.inj hc'
      exact hkept (hidle (expiry?_eq_some.2 ⟨c, hc, hlate⟩))
    | removalGrace =>
      obtain ⟨since, hsince, -⟩ := expiry?_eq_some.1 he
      cases hsince
  | parts =>
    cases expiry with
    | startTimeout =>
      obtain ⟨w, hw, -⟩ := expiry?_eq_some.1 he
      cases hw
    | idle =>
      obtain ⟨c, hc, -⟩ := expiry?_eq_some.1 he
      cases hc
    | removalGrace =>
      obtain ⟨since, hsince, hover⟩ := expiry?_eq_some.1 he
      obtain rfl := SessionState.awaitingRemoval.inj hsince
      rw [Nat.sub_self] at hover
      exact hgrace (Nat.le_zero.1 hover)

namespace Outbox

/-- Nothing is due: nothing is held back, or the window is still open. -/
def Settled (o : Outbox) (now : Nat) : Prop :=
  o.held = [] ∨ ∃ deadline, o.deadline = some deadline ∧ now < deadline

theorem Windowed.settled {o : Outbox} (h : o.Windowed) (now debounce : Nat) :
    (o.flushDue now debounce).1.Settled now := by
  unfold Outbox.flushDue
  cases hd : o.deadline with
  | none => exact .inl (h hd)
  | some deadline =>
    dsimp only
    split
    · exact .inr ⟨deadline, hd, ‹_›⟩
    · split
      · exact .inl (List.isEmpty_iff.1 ‹_›)
      · exact .inl rfl

end Outbox

def Room.overdue? (r : Room) (now : Nat) (key : String) : Option Expiry :=
  (r.session? key).bind (·.expiry? now r.config)

namespace Room

variable {r r' : Room} {now : Nat} {key : String} {s : Session}

theorem overdue?_of_session (hs : r.session? key = some s) :
    r.overdue? now key = s.expiry? now r.config := by rw [overdue?, hs]; rfl

theorem overdue?_of_connected {c : Connected} (hc : r.connected? key = some c) {expiry : Expiry} :
    r.overdue? now key = some expiry ↔
      expiry = .idle ∧ r.config.idleTimeout ≤ now - c.lastInteraction := by
  obtain ⟨s, hs, hc⟩ := connected?_eq_some.1 hc
  rw [overdue?_of_session hs, Session.expiry?_eq_some]
  cases expiry <;> simp [Expiry.HasRunOut, hc]

theorem overdue?_ne_idle :
    (∃ expiry, expiry ≠ .idle ∧ r.overdue? now key = some expiry) ↔
      ∃ s, r.session? key = some s ∧
        ((∃ w, s.state = .awaitingConnect w ∧ r.config.startTimeout ≤ now - w.startedAt) ∨
          ∃ since, s.state = .awaitingRemoval since ∧ r.config.removalGrace ≤ now - since) := by
  constructor
  · rintro ⟨expiry, hne, he⟩
    obtain ⟨s, hs, he⟩ := Option.bind_eq_some_iff.1 he
    have hover := Session.expiry?_eq_some.1 he
    refine ⟨s, hs, ?_⟩
    cases expiry with
    | startTimeout => exact .inl hover
    | idle => exact absurd rfl hne
    | removalGrace => exact .inr hover
  · rintro ⟨s, hs, hstart | hgrace⟩
    · have hover : Expiry.startTimeout.HasRunOut r.config now s := hstart
      exact ⟨.startTimeout, nofun,
        (overdue?_of_session hs).trans (Session.expiry?_eq_some.2 hover)⟩
    · have hover : Expiry.removalGrace.HasRunOut r.config now s := hgrace
      exact ⟨.removalGrace, nofun,
        (overdue?_of_session hs).trans (Session.expiry?_eq_some.2 hover)⟩

end Room

structure Room.Sweeps (mishaps : Mishaps) (events : List LifecycleEvent) (now : Nat) (r r' : Room) :
    Prop where
  timers : ∀ key s, r'.session? key = some s → s.expiry? now r'.config = none
  outboxes : ∀ key c, r'.connected? key = some c →
    c.outbox.held = [] ∨ ∃ deadline, c.outbox.deadline = some deadline ∧ now < deadline
  newcomers : ∀ key, r.session? key = none → r'.session? key = none
  gone : ∀ key, ((r.session? key).isSome ∧ r'.session? key = none) ↔
    ∃ s, r.session? key = some s ∧
      ((∃ w, s.state = .awaitingConnect w ∧ r.config.startTimeout ≤ now - w.startedAt) ∨
        ∃ since, s.state = .awaitingRemoval since ∧ r.config.removalGrace ≤ now - since)
  lost : ∀ key, (r'.phase? key = some .awaitingRemoval ∧ r.phase? key ≠ some .awaitingRemoval) ↔
    ∃ c, r.connected? key = some c ∧
      (r.config.idleTimeout ≤ now - c.lastInteraction ∨ ∃ mishap, (key, mishap) ∈ mishaps)
  /-- The events tell of these mishaps, in this order, after what the host had not heard of before. -/
  told : events.filterMap LifecycleEvent.mishap? =
    r.events.filterMap LifecycleEvent.mishap? ++ mishaps.map Prod.fst
  config : r'.config = r.config

namespace LiveRoom

variable {σ : Type} [Host σ] {l l' : LiveRoom σ} {now : Nat}

theorem mem_expired {key : String} {expiry : Expiry} :
    (key, expiry) ∈ l.expired now ↔ l.room.overdue? now key = some expiry := by
  rw [expired, List.mem_filterMap]
  constructor
  · rintro ⟨k, -, he⟩
    obtain ⟨_, he, hpair⟩ := Option.map_eq_some_iff.1 he
    cases hpair
    exact he
  · intro he
    obtain ⟨s, hs, hexpiry⟩ := Option.bind_eq_some_iff.1 he
    refine ⟨key, (Host.visit_perm ..).mem_iff.2 (mem_keys.2 ⟨s, ?_⟩), ?_⟩
    · rw [get?_filter, Option.filter_eq_some_iff, hexpiry]
      exact ⟨hs, rfl⟩
    · rw [← overdue?, he]
      rfl

theorem exists_expired (P : Expiry → Prop) {key : String} :
    (∃ e ∈ l.expired now, P e.2 ∧ key = e.1) ↔
      ∃ expiry, P expiry ∧ l.room.overdue? now key = some expiry := by
  constructor
  · rintro ⟨⟨_, expiry⟩, he, hp, rfl⟩
    exact ⟨expiry, hp, mem_expired.1 he⟩
  · rintro ⟨expiry, hp, he⟩
    exact ⟨(key, expiry), mem_expired.2 he, hp, rfl⟩

theorem weathers_swept (l : LiveRoom σ) (now : Nat) :
    l.room.Weathers now (fun key => ∃ expiry, expiry ≠ .idle ∧ l.room.overdue? now key = some expiry)
      (fun key => l.room.overdue? now key = some .idle) (l.mishaps now) (l.swept now).room := by
  let purged := along (tracedExpire now) l (l.expired now)
  have hpurged := l.weathers_along (fun l => l.weathers_tracedExpire now) (l.expired now)
  have hflushed := purged.live.weathers_uses now (fun _ _ => .flush)
    (Host.visit purged.live.host purged.live.room.connectedKeys)
  rw [mishaps, ← live_tracedSwept, tracedSwept, Mishaps.of_append]
  refine (hpurged.trans hflushed).congr (fun key => ?_) fun key => ?_
  · exact (or_iff_left id).trans (exists_expired (· ≠ .idle))
  · exact (or_iff_left id).trans ((exists_expired (· = .idle)).trans exists_eq_left)

theorem current_purged (h : l.room.Current) (now : Nat) : (l.purged now).room.Current := by
  rw [purged]
  generalize l.expired now = expired
  induction expired generalizing l with
  | nil => exact h
  | cons e rest ih => exact ih ((l.turn_expireSession now e).current h)

theorem settled_flush (h : l.room.Current) {keys : List String} {k : String} {o : Outbox}
    (ho : (keys.foldl (flushSession now) l).room.outbox? k = some o) :
    o.Settled now ∨ (k ∉ keys ∧ l.room.outbox? k = some o) := by
  induction keys generalizing l with
  | nil => exact .inr ⟨nofun, ho⟩
  | cons key rest ih =>
    obtain hsettled | ⟨hk, ho⟩ := ih (current_flushSession h key).1 ho
    · exact .inl hsettled
    · obtain ⟨hne, ho⟩ | ⟨-, o', ho', rfl⟩ := outbox?_flushSession ho
      · exact .inr ⟨List.not_mem_cons_of_ne_of_not_mem hne hk, ho⟩
      · exact .inl ((h key o' ho').windowed.settled now _)

theorem settled_swept (h : l.room.Current) {k : String} {o : Outbox}
    (ho : (l.swept now).room.outbox? k = some o) : o.Settled now := by
  obtain hsettled | ⟨hk, ho⟩ := settled_flush (current_purged h now) ho
  · exact hsettled
  · refine absurd ((Host.visit_perm ..).mem_iff.2 ?_) hk
    exact mem_connectedKeys_of_outbox? ho

theorem sweeps_tick (h : l.room.Current) (hgrace : l.room.config.removalGrace ≠ 0) (now : Nat) :
    l.room.Sweeps (l.mishaps now) (l.tick now).2 now (l.tick now).1.room := by
  have hswept := l.weathers_swept now
  change l.room.Sweeps (l.mishaps now) (l.swept now).room.events now
    { (l.swept now).room with events := [] }
  refine ⟨fun key s' hs' => ?_, fun key c hc => ?_, hswept.absent, fun key => ?_, fun key => ?_,
    hswept.told, hswept.config⟩
  · obtain ⟨s, hs, hstays, hfares⟩ := hswept.before hs'
    have hoverdue : l.room.overdue? now key = s.expiry? now l.room.config := overdue?_of_session hs
    change s'.expiry? now (l.swept now).room.config = none
    rw [hswept.config]
    rw [hoverdue] at hstays hfares
    exact hfares.expiry? hgrace .inl fun expiry he => by_contra fun hne => hstays ⟨expiry, hne, he⟩
  · exact settled_swept h (Option.map_eq_some_iff.2 ⟨c, hc, rfl⟩)
  · refine (hswept.gone_iff key).trans ?_
    rw [← overdue?_ne_idle, and_iff_right_iff_imp]
    rintro ⟨expiry, -, he⟩
    obtain ⟨s, hs, -⟩ := Option.bind_eq_some_iff.1 he
    exact Option.isSome_iff_exists.2 ⟨s, hs⟩
  · refine (hswept.lost_iff key).trans ?_
    constructor
    · rintro ⟨-, c, hc, hlost⟩
      exact ⟨c, hc, hlost.imp_left fun he => ((overdue?_of_connected hc).1 he).2⟩
    · rintro ⟨c, hc, hlost⟩
      refine ⟨?_, c, hc, hlost.imp_left fun hidle => (overdue?_of_connected hc).2 ⟨rfl, hidle⟩⟩
      rintro ⟨expiry, hne, he⟩
      exact hne ((overdue?_of_connected hc).1 he).1

/-- Whatever a room has been through, a tick leaves nothing overdue and ends nothing early. -/
theorem sweeps_run (config : Config) (hgrace : config.removalGrace ≠ 0) (store : Store) (host : σ)
    (calls : List Call) (now : Nat) :
    let l := run ⟨.withStore config store, host⟩ calls
    l.room.Sweeps (l.mishaps now) (l.tick now).2 now (l.tick now).1.room := by
  intro l
  have hstart := current_withStore config store
  have hcurrent : l.room.Current := (current_run hstart calls).1
  have hconfig : l.room.config = config := config_run hstart calls
  exact sweeps_tick hcurrent (hconfig ▸ hgrace) now

/-- A session that was gone for too long leaves, and one that never did its handshake. That the
presence of the first is gone cannot be told to two others, one with a full socket and one that was
answered just before; another one was silent for too long, and the last one is well. -/
theorem sweeps_run_crowded :
    let config : Config := { maxOutstanding := 0 }
    let free : Socket := { kind := .memory none }
    let full : Socket := { kind := .memory (some 1) }
    let connect : String → Operation := fun key =>
      .connect key ⟨key, "presence:" ++ key, ⟨1, []⟩, none⟩
    let calls : List Call := [⟨0, .openSocket "gone" 0 .null⟩, ⟨0, connect "gone"⟩,
      ⟨0, .push "gone" ⟨"gone", 1, [], some (.object [])⟩⟩, ⟨5000, .socketClosed "gone" 0⟩,
      ⟨6000, .openSocket "idle" 1 .null⟩, ⟨6000, connect "idle"⟩,
      ⟨9000, .openSocket "late" 2 .null⟩, ⟨29990, .openSocket "full" 3 .null⟩,
      ⟨29990, connect "full"⟩, ⟨29990, .openSocket "slow" 4 .null⟩, ⟨29990, connect "slow"⟩,
      ⟨29990, .push "slow" ⟨"slow", 1, [], none⟩⟩, ⟨29990, .openSocket "well" 5 .null⟩,
      ⟨29990, connect "well"⟩]
    let network : Network := ⟨[free, free, free, full, free, free]⟩
    let l := run ⟨.withStore config (.empty 0 0), network⟩ calls
    let patch : Patch := ⟨1, 2, .ofList [("presence:gone", .remove)]⟩
    config.removalGrace ≠ 0 ∧
      l.mishaps 30000 = [("full", .refused 3 (.data [.patch patch])), ("slow", .overflow)] ∧
      ["gone", "late", "idle", "full", "slow", "well"].map (l.tick 30000).1.room.phase? =
        [none, none, some .awaitingRemoval, some .awaitingRemoval, some .awaitingRemoval,
          some .connected] ∧
      l.room.Sweeps (l.mishaps 30000) (l.tick 30000).2 30000 (l.tick 30000).1.room := by
  intro config free full connect calls network l patch
  have hmishaps : l.mishaps 30000 =
      [("full", .refused 3 (.data [.patch patch])), ("slow", .overflow)] := by decide +kernel
  have hphases : ["gone", "late", "idle", "full", "slow", "well"].map (l.tick 30000).1.room.phase? =
      [none, none, some .awaitingRemoval, some .awaitingRemoval, some .awaitingRemoval,
        some .connected] := by decide +kernel
  have hsweeps := sweeps_run config (by decide) (.empty 0 0) network calls 30000
  have hl : run ⟨.withStore config (.empty 0 0), network⟩ calls = l := rfl
  simp only [hl] at hsweeps
  clear_value l
  exact ⟨by decide, hmishaps, hphases, hsweeps⟩

end LiveRoom

end RoomSync
