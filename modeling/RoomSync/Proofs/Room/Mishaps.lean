import RoomSync.Proofs.Room.Confinement
import RoomSync.Proofs.Room.Ledger
import RoomSync.Proofs.Room.Lifecycle

namespace RoomSync

open Table Room

abbrev Mishaps := List (String × Mishap)

def Mishaps.of (log : List OutboxEvent) : Mishaps :=
  log.filterMap fun event => event.mishap?.map (event.key, ·)

/-- The session that an event tells the loss of, unless it was only silent for too long. -/
def LifecycleEvent.mishap? : LifecycleEvent → Option String
  | .cancelled _ .idleTimeout => none
  | .cancelled key _ => some key
  | .connected _ _ | .removed _ _ => none

def Nobody (_ : String) : Prop := False

def Mishaps.Befall (log : Mishaps) (key : String) : Prop := ∃ mishap, (key, mishap) ∈ log

namespace Mishaps

variable {log log' : Mishaps} {key : String} {mishap : Mishap}

theorem unharmed (key : String) : ¬(Nobody key ∨ Befall [] key) := by simp [Nobody, Befall]

theorem befall_single {k : String} : Befall [(key, mishap)] k ↔ k = key := by simp [Befall]

theorem of_append (log new : List OutboxEvent) : Mishaps.of (log ++ new) = .of log ++ .of new :=
  List.filterMap_append

theorem befall_append : Befall (log ++ log') key ↔ log.Befall key ∨ log'.Befall key := by
  simp [Befall, exists_or]

end Mishaps

namespace LiveRoom

variable {σ : Type} [Host σ]

def along {α : Type} (f : LiveRoom σ → α → Traced σ) (l : LiveRoom σ) : List α → Traced σ
  | [] => ⟨l, []⟩
  | a :: rest =>
    let first := f l a
    let others := along f first.live rest
    ⟨others.live, first.log ++ others.log⟩

def tracedBroadcast (l : LiveRoom σ) (changes : Changes) (except : Option String) (now : Nat) :
    Traced σ :=
  let targets := l.room.connectedKeys.filter fun key => some key ≠ except
  along (tracedPatch changes now) l (Host.visit l.host targets)

def tracedDrop (l : LiveRoom σ) (id? : Option RecordId) (now : Nat) : Traced σ :=
  match id? with
  | some id =>
    if l.room.presence.contains id then
      tracedBroadcast ⟨l.room.dropped (some id), l.host⟩ (Table.empty.insert id .remove) none now
    else ⟨l, []⟩
  | none => ⟨l, []⟩

def tracedRemove (l : LiveRoom σ) (key : String) (cause : RemovalCause) (now : Nat) : Traced σ :=
  match l.room.session? key with
  | some s =>
    let dropped := (l.left key s).tracedDrop s.presenceId now
    ⟨dropped.live.note (.removed key cause), dropped.log⟩
  | none => ⟨l, []⟩

def tracedExpire (now : Nat) (l : LiveRoom σ) (expired : String × Expiry) : Traced σ :=
  match expired.2 with
  | .startTimeout => l.tracedRemove expired.1 .startTimeout now
  | .idle => ⟨l.cancel expired.1 .idleTimeout now, []⟩
  | .removalGrace => l.tracedRemove expired.1 .removalGrace now

/-- The room at the end of a tick, with every use of an outbox on the way. -/
def tracedSwept (l : LiveRoom σ) (now : Nat) : Traced σ :=
  let purged := along (tracedExpire now) l (l.expired now)
  let keys := Host.visit purged.live.host purged.live.room.connectedKeys
  let flushed := along (useOutbox (fun _ => .flush) now) purged.live keys
  ⟨flushed.live, purged.log ++ flushed.log⟩

/-- All mishaps of a tick. -/
def mishaps (l : LiveRoom σ) (now : Nat) : Mishaps := .of (l.tracedSwept now).log

def purged (l : LiveRoom σ) (now : Nat) : LiveRoom σ := (l.expired now).foldl (expireSession now) l

variable (l : LiveRoom σ)

omit [Host σ] in
theorem live_along {α : Type} {f : LiveRoom σ → α → Traced σ} {g : LiveRoom σ → α → LiveRoom σ}
    (h : ∀ l a, (f l a).live = g l a) (as : List α) : (along f l as).live = as.foldl g l := by
  induction as generalizing l with
  | nil => rfl
  | cons a rest ih =>
    rw [along, List.foldl_cons, ← h]
    exact ih (f l a).live

theorem live_tracedBroadcast (changes : Changes) (except : Option String) (now : Nat) :
    (l.tracedBroadcast changes except now).live = l.broadcast changes except now :=
  l.live_along (fun l key => l.live_tracedPatch changes now key) _

theorem live_tracedDrop (id? : Option RecordId) (now : Nat) :
    (l.tracedDrop id? now).live = l.dropPresence? id? now := by
  cases id? with
  | none => rfl
  | some id =>
    rw [tracedDrop, dropPresence?, dropPresence, Room.dropped]
    split
    · exact live_tracedBroadcast ⟨_, l.host⟩ _ none now
    · rfl

theorem live_tracedRemove (key : String) (cause : RemovalCause) (now : Nat) :
    (l.tracedRemove key cause now).live = l.remove key cause now := by
  cases hs : l.room.session? key with
  | none => rw [tracedRemove, remove, hs]
  | some s =>
    rw [tracedRemove, remove_eq hs, hs]
    exact congrArg (·.note (.removed key cause)) ((l.left key s).live_tracedDrop s.presenceId now)

theorem live_tracedExpire (now : Nat) (expired : String × Expiry) :
    (tracedExpire now l expired).live = expireSession now l expired := by
  obtain ⟨key, expiry⟩ := expired
  cases expiry with
  | startTimeout | removalGrace => exact l.live_tracedRemove key _ now
  | idle => rfl

theorem live_purged (now : Nat) :
    (along (tracedExpire now) l (l.expired now)).live = l.purged now :=
  l.live_along (fun l => l.live_tracedExpire now) _

theorem live_tracedSwept (now : Nat) : (l.tracedSwept now).live = l.swept now := by
  rw [tracedSwept]
  dsimp only
  rw [l.live_purged now]
  exact (l.purged now).live_along (fun l key => l.live_flush key now) _

end LiveRoom

/-- What becomes of a session that stays in the room, whose connection is kept or lost if it has
one. -/
inductive Session.Fares (now : Nat) (lost : Prop) : Session → Session → Prop
  | apart {s : Session} : (∀ c, s.state ≠ .connected c) → Fares now lost s s
  | stays {s : Session} {c : Connected} (outbox : Outbox) : ¬lost → s.state = .connected c →
      Fares now lost s { s with state := .connected { c with outbox } }
  | parts {s : Session} {c : Connected} : lost → s.state = .connected c →
      Fares now lost s { s with state := .awaitingRemoval now }

namespace Session.Fares

variable {now : Nat} {lost lost' : Prop} {s s' s'' : Session}

theorem same (h : lost → ∀ c, s.state ≠ .connected c) : Fares now lost s s := by
  obtain ⟨presenceId, info, state⟩ := s
  cases state with
  | connected c => exact .stays c.outbox (fun hlost => h hlost c rfl) rfl
  | awaitingConnect w => exact .apart nofun
  | awaitingRemoval since => exact .apart nofun

theorem trans (h : Fares now lost s s') (h' : Fares now lost' s' s'') :
    Fares now (lost ∨ lost') s s'' := by
  cases h with
  | apart hno =>
    cases h' with
    | apart _ => exact .apart hno
    | stays _ _ hc => exact absurd hc (hno _)
    | parts _ hc => exact absurd hc (hno _)
  | @stays c _ hkept hc =>
    cases h' with
    | apart hno => exact absurd rfl (hno _)
    | stays outbox hkept' hc' =>
      obtain rfl := SessionState.connected.inj hc'
      have hboth : Fares now (lost ∨ lost') s { s with state := .connected { c with outbox } } :=
        .stays outbox (not_or.2 ⟨hkept, hkept'⟩) hc
      exact hboth
    | parts hlost' _ => exact .parts (.inr hlost') hc
  | parts hlost hc =>
    cases h' with
    | apart _ => exact .parts (.inl hlost) hc
    | stays _ _ hc' => cases hc'
    | parts _ hc' => cases hc'

theorem congr (h : Fares now lost s s') (hlost : lost ↔ lost') : Fares now lost' s s' :=
  propext hlost ▸ h

end Session.Fares

/-- What becomes of the sessions of a room, some of which go and some of which lose their
connections, for their silence or for a mishap. -/
structure Room.Weathers (now : Nat) (gone silent : String → Prop) (log : Mishaps) (r r' : Room) :
    Prop where
  config : r'.config = r.config
  absent : ∀ key, r.session? key = none → r'.session? key = none
  leaves : ∀ key, gone key → r'.session? key = none
  stays : ∀ key s, ¬gone key → r.session? key = some s →
    ∃ s', r'.session? key = some s' ∧ s.Fares now (silent key ∨ log.Befall key) s'
  told : r'.events.filterMap LifecycleEvent.mishap? =
    r.events.filterMap LifecycleEvent.mishap? ++ log.map Prod.fst

namespace Room.Weathers

variable {now : Nat} {gone gone' silent silent' : String → Prop} {log log' : Mishaps}
  {r r' r'' : Room}

theorem of_sessions (hconfig : r'.config = r.config)
    (hsessions : ∀ key, r'.session? key = r.session? key) (hevents : r'.events = r.events) :
    Weathers now Nobody Nobody [] r r' := by
  refine ⟨hconfig, fun key h => (hsessions key).trans h, nofun, fun key s _ hs => ?_, ?_⟩
  · exact ⟨s, (hsessions key).trans hs, .same fun h => absurd h (Mishaps.unharmed key)⟩
  · rw [hevents]
    exact (List.append_nil _).symm

theorem refl (r : Room) : Weathers now Nobody Nobody [] r r := .of_sessions rfl (fun _ => rfl) rfl

theorem trans (h : Weathers now gone silent log r r') (h' : Weathers now gone' silent' log' r' r'') :
    Weathers now (fun key => gone key ∨ gone' key) (fun key => silent key ∨ silent' key)
      (log ++ log') r r'' := by
  refine ⟨h'.config.trans h.config, fun key hs => h'.absent key (h.absent key hs),
    fun key hgone => ?_, fun key s hstays hs => ?_, ?_⟩
  · exact hgone.elim (fun hgone => h'.absent key (h.leaves key hgone)) (h'.leaves key)
  · obtain ⟨hstays, hstays'⟩ := not_or.1 hstays
    obtain ⟨s', hs', hfares⟩ := h.stays key s hstays hs
    obtain ⟨s'', hs'', hfares'⟩ := h'.stays key s' hstays' hs'
    refine ⟨s'', hs'', (hfares.trans hfares').congr ?_⟩
    rw [Mishaps.befall_append]
    exact or_or_or_comm
  · rw [h'.told, h.told, List.map_append, List.append_assoc]

theorem congr (h : Weathers now gone silent log r r') (hgone : ∀ key, gone key ↔ gone' key)
    (hsilent : ∀ key, silent key ↔ silent' key) : Weathers now gone' silent' log r r' := by
  obtain rfl : gone = gone' := funext fun key => propext (hgone key)
  obtain rfl : silent = silent' := funext fun key => propext (hsilent key)
  exact h

theorem after (h : Weathers now Nobody Nobody [] r r') (h' : Weathers now gone silent log r' r'') :
    Weathers now gone silent log r r'' :=
  (h.trans h').congr (fun _ => or_iff_right id) fun _ => or_iff_right id

theorem removed (h : Weathers now gone silent log r r') (key : String) (cause : RemovalCause) :
    Weathers now gone silent log r (r'.note (.removed key cause)) := by
  refine ⟨h.config, h.absent, h.leaves, h.stays, ?_⟩
  rw [← h.told, note, List.filterMap_append]
  exact List.append_nil _

theorem before {key : String} {s' : Session} (h : Weathers now gone silent log r r')
    (hs' : r'.session? key = some s') :
    ∃ s, r.session? key = some s ∧ ¬gone key ∧ s.Fares now (silent key ∨ log.Befall key) s' := by
  have hstays : ¬gone key := fun hgone => nomatch (h.leaves key hgone).symm.trans hs'
  cases hs : r.session? key with
  | none => cases (h.absent key hs).symm.trans hs'
  | some s =>
    obtain ⟨t, ht, hfares⟩ := h.stays key s hstays hs
    obtain rfl := Option.some.inj (hs'.symm.trans ht)
    exact ⟨s, rfl, hstays, hfares⟩

theorem gone_iff (h : Weathers now gone silent log r r') (key : String) :
    (r.session? key).isSome ∧ r'.session? key = none ↔ (r.session? key).isSome ∧ gone key := by
  refine and_congr_right fun hsome => ⟨fun hnone => ?_, h.leaves key⟩
  obtain ⟨s, hs⟩ := Option.isSome_iff_exists.1 hsome
  by_contra hstays
  obtain ⟨s', hs', -⟩ := h.stays key s hstays hs
  cases hs'.symm.trans hnone

theorem lost_iff (h : Weathers now gone silent log r r') (key : String) :
    r'.phase? key = some .awaitingRemoval ∧ r.phase? key ≠ some .awaitingRemoval ↔
      ¬gone key ∧ ∃ c, r.connected? key = some c ∧ (silent key ∨ log.Befall key) := by
  constructor
  · rintro ⟨hafter, hnot⟩
    obtain ⟨s', hs', hphase⟩ := Option.map_eq_some_iff.1 hafter
    obtain ⟨s, hs, hstays, hfares⟩ := h.before hs'
    cases hfares with
    | apart => exact absurd (by rw [phase?_eq_some hs, hphase]) hnot
    | stays => cases hphase
    | parts hlost hc => exact ⟨hstays, _, connected?_eq_some.2 ⟨s, hs, hc⟩, hlost⟩
  · rintro ⟨hstays, c, hc, hlost⟩
    obtain ⟨s, hs, hc⟩ := connected?_eq_some.1 hc
    obtain ⟨s', hs', hfares⟩ := h.stays key s hstays hs
    cases hfares with
    | apart hno => exact absurd hc (hno c)
    | stays _ hkept => exact absurd hlost hkept
    | parts =>
      refine ⟨phase?_eq_some hs', ?_⟩
      rw [phase?_eq_some hs, Session.phase, hc]
      intro h
      cases h

theorem seated {key : String} {s s' : Session} (hs : r.session? key = some s)
    (h : s.Fares now (silent key ∨ log.Befall key) s')
    (hothers : ∀ k, silent k ∨ log.Befall k → k = key) {events : List LifecycleEvent}
    (htold : events.filterMap LifecycleEvent.mishap? =
      r.events.filterMap LifecycleEvent.mishap? ++ log.map Prod.fst) :
    Weathers now Nobody silent log r { r.seated key s' with events } := by
  have hsession : ∀ k, Room.session? { r.seated key s' with events } k =
      if k = key then some s' else r.session? k := fun k => r.session?_seated key k s'
  refine ⟨rfl, fun k hk => ?_, nofun, fun k t _ ht => ?_, htold⟩ <;> rw [hsession]
  · rw [if_neg, hk]
    rintro rfl
    cases hs.symm.trans hk
  · by_cases hk : k = key
    · obtain rfl := hk
      obtain rfl := Option.some.inj (hs.symm.trans ht)
      exact ⟨s', if_pos rfl, h⟩
    · exact ⟨t, (if_neg hk).trans ht, .same fun h => absurd (hothers k h) hk⟩

theorem without (r : Room) (key : String) : Weathers now (· = key) Nobody [] r (r.without key) := by
  refine ⟨rfl, fun k hk => ?_, fun k hk => ?_, fun k s hk hs => ⟨s, ?_, .same ?_⟩,
    (List.append_nil _).symm⟩
  · rw [session?_without]
    split
    · rfl
    · exact hk
  · rw [session?_without, if_pos hk]
  · rw [session?_without, if_neg hk, hs]
  · exact fun h => absurd h (Mishaps.unharmed k)

end Room.Weathers

namespace LiveRoom

variable {σ : Type} (l : LiveRoom σ) (now : Nat)

theorem weathers_setOutbox (key : String) (outbox : Outbox) :
    l.room.Weathers now Nobody Nobody [] (l.setOutbox key outbox).room := by
  rw [setOutbox]
  cases hs : l.room.session? key with
  | none =>
    rw [modifySession_of_none hs]
    exact .refl _
  | some s =>
    have hfares : s.Fares now (Nobody key ∨ Mishaps.Befall [] key)
        (s.mapConnected fun c => { c with outbox }) := by
      obtain ⟨presenceId, info, state⟩ := s
      cases state with
      | connected c => exact .stays (c := c) outbox (Mishaps.unharmed key) rfl
      | awaitingConnect w => exact .apart fun c h => by cases h
      | awaitingRemoval since => exact .apart fun c h => by cases h
    rw [modifySession_of_some hs]
    exact .seated hs hfares (fun k h => absurd h (Mishaps.unharmed k)) (List.append_nil _).symm

variable {now} in
theorem weathers_along {α : Type} {f : LiveRoom σ → α → Traced σ} {gone silent : α → String → Prop}
    (h : ∀ (l : LiveRoom σ) a,
      l.room.Weathers now (gone a) (silent a) (.of (f l a).log) (f l a).live.room) (as : List α) :
    l.room.Weathers now (fun key => ∃ a ∈ as, gone a key) (fun key => ∃ a ∈ as, silent a key)
      (.of (along f l as).log) (along f l as).live.room := by
  induction as generalizing l with
  | nil => exact (Weathers.refl _).congr (by simp [Nobody]) (by simp [Nobody])
  | cons a rest ih =>
    rw [along, Mishaps.of_append]
    refine ((h l a).trans (ih (f l a).live)).congr (fun key => ?_) fun key => ?_ <;>
      rw [List.exists_mem_cons_iff]

theorem connected_setOutbox {key : String} {c : Connected} (hc : l.room.connected? key = some c)
    (outbox : Outbox) : ∃ c', (l.setOutbox key outbox).room.connected? key = some c' := by
  have ho : (l.setOutbox key outbox).room.outbox? key = some outbox := by
    rw [outbox?_setOutbox, if_pos rfl, outbox?, hc]
    rfl
  obtain ⟨c', hc', -⟩ := Option.map_eq_some_iff.1 ho
  exact ⟨c', hc'⟩

variable [Host σ]

theorem weathers_silence (key : String) :
    l.room.Weathers now Nobody (· = key) [] (l.cancel key .idleTimeout now).room := by
  cases hs : l.room.session? key with
  | none =>
    rw [l.cancel_of_none .idleTimeout now hs]
    refine ⟨rfl, fun _ h => h, nofun, fun k s _ ht => ⟨s, ht, .same ?_⟩, (List.append_nil _).symm⟩
    rintro (rfl | h)
    · cases hs.symm.trans ht
    · cases h.choose_spec
  | some s =>
    have hothers : ∀ k, k = key ∨ Mishaps.Befall [] k → k = key := fun k h => h.elim id nofun
    by_cases hc : ∃ c, s.state = .connected c
    · obtain ⟨c, hc⟩ := hc
      rw [l.cancel_of_connected .idleTimeout now hs hc]
      refine .seated hs (.parts ?_ hc) hothers List.filterMap_append
      exact .inl rfl
    · have hno : ∀ c, s.state ≠ .connected c := fun c h => hc ⟨c, h⟩
      rw [l.cancel_of_not_connected .idleTimeout now hs hno]
      exact .seated hs (.apart hno) hothers (List.append_nil _).symm

theorem weathers_mishap {key : String} {c : Connected} (hc : l.room.connected? key = some c)
    (mishap : Mishap) {cause : CancelCause} (hcause : cause ≠ .idleTimeout) :
    l.room.Weathers now Nobody Nobody [(key, mishap)] (l.cancel key cause now).room := by
  obtain ⟨s, hs, hc⟩ := connected?_eq_some.1 hc
  rw [l.cancel_of_connected cause now hs hc]
  refine .seated hs (.parts (.inr (Mishaps.befall_single.2 rfl)) hc)
    (fun k h => h.elim nofun Mishaps.befall_single.1) ?_
  refine List.filterMap_append.trans (congrArg _ ?_)
  cases cause with
  | idleTimeout => exact absurd rfl hcause
  | socketClosed | slowConsumer => rfl

theorem weathers_useOutbox (use : Outbox → OutboxUse) (key : String) :
    l.room.Weathers now Nobody Nobody (.of (useOutbox use now l key).log)
      (useOutbox use now l key).live.room := by
  cases hc : l.room.connected? key with
  | none =>
    rw [useOutbox_of_none hc]
    exact .refl _
  | some c =>
    obtain ⟨outbox, -, host, -, hlog, ⟨rfl, he⟩ | ⟨mishap, cause, hcause, rfl, he⟩⟩ :=
      useOutbox_cases hc use now <;> rw [hlog, he]
    · exact l.weathers_setOutbox now key outbox
    · obtain ⟨c', hc'⟩ := l.connected_setOutbox hc outbox
      exact (l.weathers_setOutbox now key outbox).after
        (weathers_mishap ⟨(l.setOutbox key outbox).room, host⟩ now hc' mishap hcause)

theorem weathers_uses (use : LiveRoom σ → Outbox → OutboxUse) (keys : List String) :
    l.room.Weathers now Nobody Nobody (.of (along (fun l => useOutbox (use l) now l) l keys).log)
      (along (fun l => useOutbox (use l) now l) l keys).live.room := by
  have hnobody : ∀ key, (∃ k ∈ keys, Nobody key) ↔ Nobody key := by simp [Nobody]
  exact (l.weathers_along (fun l => l.weathers_useOutbox now (use l)) keys).congr hnobody hnobody

theorem weathers_tracedBroadcast (changes : Changes) (except : Option String) :
    l.room.Weathers now Nobody Nobody (.of (l.tracedBroadcast changes except now).log)
      (l.tracedBroadcast changes except now).live.room :=
  l.weathers_uses now (fun l o => .post (.patch (o.patchTo l.room.clock changes))) _

theorem weathers_tracedDrop (id? : Option RecordId) :
    l.room.Weathers now Nobody Nobody (.of (l.tracedDrop id? now).log)
      (l.tracedDrop id? now).live.room := by
  cases id? with
  | none => exact .refl _
  | some id =>
    rw [tracedDrop]
    by_cases hid : l.room.presence.contains id = true
    · have hevents : (l.room.dropped (some id)).events = l.room.events := by
        rw [Room.dropped, if_pos hid]
      have hsame : l.room.Weathers now Nobody Nobody [] (l.room.dropped (some id)) :=
        .of_sessions (l.room.config_dropped _) (l.room.session?_dropped _) hevents
      rw [if_pos hid]
      exact hsame.after (weathers_tracedBroadcast ..)
    · rw [if_neg hid]
      exact .refl _

theorem weathers_tracedRemove (key : String) (cause : RemovalCause) :
    l.room.Weathers now (· = key) Nobody (.of (l.tracedRemove key cause now).log)
      (l.tracedRemove key cause now).live.room := by
  rw [tracedRemove]
  cases hs : l.room.session? key with
  | none =>
    exact ⟨rfl, fun _ h => h, fun k hk => hk ▸ hs, fun k s _ hs => ⟨s, hs, .same
      fun h => absurd h (Mishaps.unharmed k)⟩, (List.append_nil _).symm⟩
  | some s =>
    have hleft : l.room.Weathers now (· = key) Nobody [] (l.left key s).room := by
      rw [l.room_left key s]
      exact .without l.room key
    have hdropped := (l.left key s).weathers_tracedDrop now s.presenceId
    exact ((hleft.trans hdropped).congr (fun _ => or_iff_left id) fun _ => or_iff_right id).removed
      key cause

theorem weathers_tracedExpire (expired : String × Expiry) :
    l.room.Weathers now (fun key => expired.2 ≠ .idle ∧ key = expired.1)
      (fun key => expired.2 = .idle ∧ key = expired.1) (.of (tracedExpire now l expired).log)
      (tracedExpire now l expired).live.room := by
  obtain ⟨key, expiry⟩ := expired
  cases expiry with
  | idle => exact (l.weathers_silence now key).congr (by simp [Nobody]) (by simp)
  | startTimeout | removalGrace =>
    exact (l.weathers_tracedRemove now key _).congr (by simp) (by simp [Nobody])

end LiveRoom

end RoomSync
