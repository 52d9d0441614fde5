import RoomSync.Proofs.Room.Ahead
import RoomSync.Proofs.Room.Sockets

namespace RoomSync

open Table Room

abbrev Log := List (SocketId × Option ServerMessage)

/-- An order in which sessions are visited. It may depend on all that the host has seen. -/
structure Itinerary where
  order : Log → List String → List String
  order_perm : ∀ log keys, (order log keys).Perm keys

/-- A host whose sockets answer by the number of frames that they were given. -/
structure Switchboard where
  answer : SocketId → Nat → Option SocketError
  itinerary : Itinerary
  log : Log

namespace Switchboard

def count (s : Switchboard) (socket : SocketId) : Nat :=
  s.log.countP fun entry => entry.1 = socket && entry.2.isSome

instance : Host Switchboard where
  send s socket msg :=
    ({ s with log := s.log ++ [(socket, some msg)] }, s.answer socket (s.count socket))
  close s socket := { s with log := s.log ++ [(socket, none)] }
  visit s keys := s.itinerary.order s.log keys
  visit_perm s keys := s.itinerary.order_perm s.log keys

variable (s : Switchboard) (socket t : SocketId)

theorem count_send (msg : ServerMessage) :
    (Host.send s socket msg).1.count t = s.count t + if socket = t then 1 else 0 := by
  refine List.countP_append.trans (congrArg _ ?_)
  by_cases ht : socket = t <;> simp [ht]

theorem count_close : (Host.close s socket).count t = s.count t := by
  refine List.countP_append.trans ?_
  simp [count]

end Switchboard

/-- A connection, with the number of frames that its socket was given and those that it took. -/
structure Lane where
  connected : Connected
  given : Nat
  taken : List ServerMessage

namespace Lane

def withOutbox (lane : Lane) (outbox : Outbox) : Lane :=
  { lane with connected := { lane.connected with outbox } }

section
variable (answer : SocketId → Nat → Option SocketError) (config : Config) (now : Nat)

def give (lane : Lane) (msg : ServerMessage) : Option Lane :=
  match answer lane.connected.socket lane.given with
  | none => some { lane with given := lane.given + 1, taken := lane.taken ++ [msg] }
  | some _ => none

def post (lane : Lane) (msg : DataMessage) : Option Lane :=
  let (outbox, posting) := lane.connected.outbox.enqueue msg now config
  match posting with
  | .send batch => (lane.withOutbox outbox).give answer (.data batch)
  | .held => some (lane.withOutbox outbox)
  | .overflow => none

def postPatch (clock : Nat) (changes : Changes) (lane : Lane) : Option Lane :=
  lane.post answer config now (.patch (lane.connected.outbox.patchTo clock changes))

def withdraw : Nat → List RecordId → Lane → Option Lane
  | _, [], lane => some lane
  | clock, id :: ids, lane =>
    (lane.postPatch answer config now (clock + 1) (Table.empty.insert id .remove)).bind
      (withdraw (clock + 1) ids)

def flush (lane : Lane) : Option Lane :=
  let (outbox, due) := lane.connected.outbox.flushDue now config.debounce
  match due with
  | none => some (lane.withOutbox outbox)
  | some batch => (lane.withOutbox outbox).give answer (.data batch)

end

variable {answer : SocketId → Nat → Option SocketError} {config : Config} {now : Nat}

theorem withdraw_append (clock : Nat) (ids ids' : List RecordId) (lane : Lane) :
    lane.withdraw answer config now clock (ids ++ ids') =
      (lane.withdraw answer config now clock ids).bind
        (withdraw answer config now (clock + ids.length) ids') := by
  induction ids generalizing clock lane with
  | nil => rfl
  | cons id ids ih =>
    rw [List.cons_append, withdraw, withdraw, Option.bind_assoc, List.length_cons]
    refine congrArg _ (funext fun lane => (ih (clock + 1) lane).trans ?_)
    rw [Nat.add_assoc, Nat.add_comm 1]

end Lane

def Room.withdrawn? (r : Room) (expired : String × Expiry) : Option RecordId :=
  if expired.2 = .idle then none
  else ((r.session? expired.1).bind Session.presenceId).filter r.presence.contains

def Room.droppedAll (r : Room) (ids : List RecordId) : Room :=
  ids.foldl (fun r id => r.dropped (some id)) r

theorem Room.Rests.droppedAll {r r' : Room} (h : r.Rests r') (ids : List RecordId) :
    (r.droppedAll ids).Rests (r'.droppedAll ids) := by
  induction ids generalizing r r' with
  | nil => exact h
  | cons id ids ih => exact ih (h.dropped (some id))

theorem Room.droppedAll_cons (r : Room) (id? : Option RecordId) (ids : List RecordId) :
    r.droppedAll (id?.toList ++ ids) = (r.dropped id?).droppedAll ids := by
  cases id? <;> rfl

theorem Room.clock_withdrawn (r : Room) (e : String × Expiry) :
    (r.dropped (r.withdrawn? e)).clock = r.clock + (r.withdrawn? e).toList.length := by
  rw [(r.dropped_frame (r.withdrawn? e)).1]
  cases hid : r.withdrawn? e with
  | none => rfl
  | some id =>
    have hcontains : r.presence.contains id = true := by
      rw [withdrawn?] at hid
      split at hid
      · cases hid
      · exact (Option.filter_eq_some_iff.1 hid).2
    rw [Option.any_some, hcontains]
    rfl

namespace LiveRoom

/-- The connection of a session as it notices it. -/
def lane? (l : LiveRoom (Journal Switchboard)) (key : String) : Option Lane :=
  (l.room.connected? key).map fun c => ⟨c, l.host.host.count c.socket, l.host.taken c.socket⟩

def visiting (l : LiveRoom (Journal Switchboard)) (itinerary : Itinerary) :
    LiveRoom (Journal Switchboard) :=
  { l with host := { l.host with host := { l.host.host with itinerary } } }

/-- Sockets answer in a given way, and no two sessions share one. -/
structure Wired (answer : SocketId → Nat → Option SocketError) (config : Config)
    (l : LiveRoom (Journal Switchboard)) : Prop where
  answer : l.host.host.answer = answer
  config : l.room.config = config
  distinct : ∀ k k' s s' t, l.room.session? k = some s → l.room.session? k' = some s' →
    s.socket? = some t → s'.socket? = some t → k = k'

variable {answer : SocketId → Nat → Option SocketError} {config : Config}
  {l l' : LiveRoom (Journal Switchboard)} {key k : String} {now : Nat}

theorem keeps_answer (answer : SocketId → Nat → Option SocketError) :
    Host.Keeps fun r : Journal Switchboard => r.host.answer = answer :=
  ⟨fun _ _ _ h => h, fun _ _ h => h⟩

theorem Wired.inherits (h : l.Wired answer config) (hanswer : l'.host.host.answer = answer)
    (hconfig : l'.room.config = l.room.config) (hi : l.room.Inherits l'.room) :
    l'.Wired answer config := by
  refine ⟨hanswer, hconfig.trans h.config, fun k k' s s' t hs hs' ht ht' => ?_⟩
  obtain ⟨_, hs, ht⟩ := hi k s t hs ht
  obtain ⟨_, hs', ht'⟩ := hi k' s' t hs' ht'
  exact h.distinct k k' _ _ t hs hs' ht ht'

theorem delivery_wired (now : Nat) : Delivery now fun l l' : LiveRoom (Journal Switchboard) =>
    l.Wired answer config → l'.Wired answer config where
  refl _ := id
  trans h h' := h' ∘ h
  tell _ _ _ h := ⟨h.answer, h.config, h.distinct⟩
  setOutbox l key outbox h :=
    h.inherits h.answer rfl (l.steady_setOutbox key outbox).inherits
  cancel l key cause h :=
    h.inherits (host_cancel (keeps_answer answer) h.answer key cause now)
      (l.steady_cancel key cause now).config (l.steady_cancel key cause now).inherits

theorem lane?_eq_some {lane : Lane} (h : l.lane? key = some lane) :
    l.room.connected? key = some lane.connected ∧
      lane.given = l.host.host.count lane.connected.socket ∧
      lane.taken = l.host.taken lane.connected.socket := by
  obtain ⟨c, hc, rfl⟩ := Option.map_eq_some_iff.1 h
  exact ⟨hc, rfl, rfl⟩

theorem lane?_congr (hroom : l'.room.connected? key = l.room.connected? key)
    (hcount : ∀ c, l.room.connected? key = some c →
      l'.host.host.count c.socket = l.host.host.count c.socket ∧
        l'.host.taken c.socket = l.host.taken c.socket) : l'.lane? key = l.lane? key := by
  rw [lane?, lane?, hroom]
  refine Option.map_congr fun c hc => ?_
  rw [(hcount c hc).1, (hcount c hc).2]

theorem lane?_setOutbox (l : LiveRoom (Journal Switchboard)) (key k : String) (outbox : Outbox) :
    (l.setOutbox key outbox).lane? k =
      if k = key then (l.lane? k).map (·.withOutbox outbox) else l.lane? k := by
  have hset : (l.setOutbox key outbox).room.connected? k =
      if k = key then (l.room.connected? k).map fun c => { c with outbox } else
        l.room.connected? k := l.room.connected?_modifySession key k _
  rw [lane?, hset, lane?]
  split
  · rw [Option.map_map, Option.map_map]
    rfl
  · rfl

theorem lane?_cancel (l : LiveRoom (Journal Switchboard)) (key k : String) (cause : CancelCause)
    (now : Nat) :
    (l.cancel key cause now).lane? k = if k = key then none else l.lane? k := by
  have hhost : ∀ t, (l.cancel key cause now).host.host.count t = l.host.host.count t ∧
      (l.cancel key cause now).host.taken t = l.host.taken t := fun t => by
    cases hs : l.room.session? key with
    | none => rw [cancel_of_none l cause now hs]; exact ⟨rfl, rfl⟩
    | some s =>
      simp only [cancel, hs, Session.cancel]
      cases s.state with
      | connected c => exact ⟨l.host.host.count_close c.socket t, l.host.taken_close c.socket t⟩
      | awaitingConnect | awaitingRemoval => exact ⟨rfl, rfl⟩
  rw [lane?, connected?_cancel]
  split
  · rfl
  · refine Option.map_congr fun c _ => ?_
    rw [(hhost c.socket).1, (hhost c.socket).2]

theorem Wired.socket_ne (h : l.Wired answer config) {c c' : Connected}
    (hc : l.room.connected? key = some c) (hc' : l.room.connected? k = some c') (hk : k ≠ key) :
    c'.socket ≠ c.socket := by
  obtain ⟨s, hs, hstate⟩ := connected?_eq_some.1 hc
  obtain ⟨s', hs', hstate'⟩ := connected?_eq_some.1 hc'
  refine fun he => hk (h.distinct k key s' s c.socket hs' hs ?_ ?_)
  · rw [Session.socket?, hstate', ← he]
  · rw [Session.socket?, hstate]

theorem lane?_sendFrame (h : l.Wired answer config) {lane : Lane} (hlane : l.lane? key = some lane)
    (msg : ServerMessage) (k : String) :
    (l.sendFrame key lane.connected.socket msg now).lane? k =
      if k = key then lane.give answer msg else l.lane? k := by
  obtain ⟨hc, hgiven, htaken⟩ := lane?_eq_some hlane
  let socket := lane.connected.socket
  let told : LiveRoom (Journal Switchboard) := ⟨l.room, (Host.send l.host socket msg).1⟩
  have hanswer : (Host.send l.host socket msg).2 = answer socket lane.given := by
    rw [hgiven, ← h.answer]
    rfl
  have hcount : ∀ t, told.host.host.count t =
      l.host.host.count t + if socket = t then 1 else 0 := fun t =>
    l.host.host.count_send socket t msg
  have hothers : k ≠ key → told.lane? k = l.lane? k := fun hk => by
    refine lane?_congr rfl fun c' hc' => ?_
    have hne : ¬socket = c'.socket := Ne.symm (h.socket_ne hc hc' hk)
    refine ⟨(hcount _).trans (by rw [if_neg hne, Nat.add_zero]), ?_⟩
    rw [Journal.taken_send, if_neg fun he => hne he.2, List.append_nil]
  obtain ⟨hnone, he⟩ | ⟨herror, cause, he⟩ := l.sendFrame_cases now socket msg
  · rw [he]
    by_cases hk : k = key
    · rw [if_pos hk, hk, Lane.give, ← hanswer, hnone, lane?,
        show told.room.connected? key = _ from hc, Option.map_some, hcount, if_pos rfl,
        Journal.taken_send, if_pos ⟨hnone, rfl⟩, hgiven, htaken]
    · rw [if_neg hk]
      exact hothers hk
  · rw [he, lane?_cancel]
    by_cases hk : k = key
    · rw [if_pos hk, if_pos hk, Lane.give, ← hanswer]
      cases hr : (Host.send l.host socket msg).2 with
      | none => exact absurd hr herror
      | some error => rfl
    · rw [if_neg hk, if_neg hk]
      exact hothers hk

theorem lane?_eq_none (h : l.room.connected? key = none) : l.lane? key = none := by
  rw [lane?, h]
  rfl

theorem lane?_of_not_connected (hc : l.room.connected? key = none) (f : Lane → Option Lane)
    (k : String) : l.lane? k = if k = key then (l.lane? k).bind f else l.lane? k := by
  by_cases hk : k = key
  · rw [if_pos hk, hk, lane?_eq_none hc]
    rfl
  · exact (if_neg hk).symm

section
variable {lane : Lane} (hlane : l.lane? key = some lane)
include hlane

theorem bind_lane? (f : Lane → Option Lane) (k : String) :
    (if k = key then (l.lane? k).bind f else l.lane? k) =
      if k = key then f lane else l.lane? k := by
  split
  · rename_i hk
    rw [hk, hlane]
    rfl
  · rfl

theorem lane?_setOutbox_of_lane (outbox : Outbox) (k : String) :
    (l.setOutbox key outbox).lane? k =
      if k = key then some (lane.withOutbox outbox) else l.lane? k := by
  rw [lane?_setOutbox]
  split
  · rename_i hk
    rw [hk, hlane]
    rfl
  · rfl

theorem lane?_setOutbox_self (outbox : Outbox) :
    (l.setOutbox key outbox).lane? key = some (lane.withOutbox outbox) :=
  (lane?_setOutbox_of_lane hlane outbox key).trans (if_pos rfl)

end

theorem lane?_after_setOutbox {outbox : Outbox} {lane? : Option Lane}
    (hl' : ∀ k, l'.lane? k = if k = key then lane? else (l.setOutbox key outbox).lane? k)
    (k : String) : l'.lane? k = if k = key then lane? else l.lane? k := by
  rw [hl']
  split
  · rfl
  · rename_i hk
    rw [lane?_setOutbox, if_neg hk]

theorem lane?_sendData (h : l.Wired answer config) (key k : String) (msg : DataMessage) :
    (l.sendData key msg now).lane? k =
      if k = key then (l.lane? k).bind (·.post answer config now msg) else l.lane? k := by
  rw [sendData]
  cases hc : l.room.connected? key with
  | none => exact lane?_of_not_connected hc _ k
  | some c =>
    let lane : Lane := ⟨c, l.host.host.count c.socket, l.host.taken c.socket⟩
    have hlane : l.lane? key = some lane := by rw [lane?, hc]; rfl
    let o := (c.outbox.enqueue msg now config).1
    have hset := (delivery_wired now).setOutbox l key o h
    rw [bind_lane? hlane, Lane.post]
    dsimp only
    rw [h.config]
    dsimp only [lane]
    cases (c.outbox.enqueue msg now config).2 with
    | send batch =>
      exact lane?_after_setOutbox
        (lane?_sendFrame hset (lane?_setOutbox_self hlane o) (.data batch)) k
    | held => exact lane?_setOutbox_of_lane hlane o k
    | overflow => exact lane?_after_setOutbox (fun k => lane?_cancel (l.setOutbox key o) key k _ now) k

theorem lane?_flushSession (h : l.Wired answer config) (key k : String) :
    (flushSession now l key).lane? k =
      if k = key then (l.lane? k).bind (Lane.flush answer config now) else l.lane? k := by
  rw [flushSession]
  cases hc : l.room.connected? key with
  | none => exact lane?_of_not_connected hc _ k
  | some c =>
    let lane : Lane := ⟨c, l.host.host.count c.socket, l.host.taken c.socket⟩
    have hlane : l.lane? key = some lane := by rw [lane?, hc]; rfl
    let o := (c.outbox.flushDue now config.debounce).1
    have hset := (delivery_wired now).setOutbox l key o h
    rw [bind_lane? hlane, Lane.flush]
    dsimp only
    rw [h.config]
    dsimp only [lane]
    cases (c.outbox.flushDue now config.debounce).2 with
    | none => exact lane?_setOutbox_of_lane hlane o k
    | some batch =>
      exact lane?_after_setOutbox
        (lane?_sendFrame hset (lane?_setOutbox_self hlane o) (.data batch)) k

theorem lane?_sendPatch (h : l.Wired answer config) (changes : Changes) (key k : String) :
    (sendPatch changes now l key).lane? k =
      if k = key then (l.lane? k).bind (Lane.postPatch answer config now l.room.clock changes)
      else l.lane? k := by
  rw [sendPatch]
  cases hc : l.room.connected? key with
  | none => exact lane?_of_not_connected hc _ k
  | some c =>
    have hlane : l.lane? key = some ⟨c, l.host.host.count c.socket, l.host.taken c.socket⟩ := by
      rw [lane?, hc]
      rfl
    refine (lane?_sendData h key k _).trans ?_
    rw [bind_lane? hlane, bind_lane? hlane]
    rfl

/-- Where each of some sessions is visited once, each of them notices its own visit. -/
theorem lane?_foldl {P : LiveRoom (Journal Switchboard) → Prop}
    {f : LiveRoom (Journal Switchboard) → String → LiveRoom (Journal Switchboard)}
    {g : Lane → Option Lane} (hkeeps : ∀ l key, P l → P (f l key))
    (hvisit : ∀ l key k, P l →
      (f l key).lane? k = if k = key then (l.lane? k).bind g else l.lane? k)
    (h : P l) {keys : List String} (hnodup : keys.Nodup) (k : String) :
    (keys.foldl f l).lane? k = if k ∈ keys then (l.lane? k).bind g else l.lane? k := by
  induction keys generalizing l with
  | nil => rfl
  | cons key rest ih =>
    obtain ⟨hkey, hrest⟩ := List.nodup_cons.1 hnodup
    rw [List.foldl_cons, ih (hkeeps l key h) hrest, hvisit l key k h]
    by_cases hk : k = key
    · rw [if_pos hk, if_neg (hk ▸ hkey), if_pos (hk ▸ List.mem_cons_self)]
    · simp only [hk, if_false, List.mem_cons, false_or]

theorem lane?_visited {P : LiveRoom (Journal Switchboard) → Prop}
    {f : LiveRoom (Journal Switchboard) → String → LiveRoom (Journal Switchboard)}
    {g : Lane → Option Lane} (hkeeps : ∀ l key, P l → P (f l key))
    (hvisit : ∀ l key k, P l →
      (f l key).lane? k = if k = key then (l.lane? k).bind g else l.lane? k)
    (h : P l) {keys : List String} (hkeys : keys.Perm l.room.connectedKeys) (k : String) :
    (keys.foldl f l).lane? k = (l.lane? k).bind g := by
  rw [lane?_foldl hkeeps hvisit h (hkeys.nodup_iff.2 (keys_nodup _)) k]
  split
  · rfl
  · rename_i hk
    cases hc : l.room.connected? k with
    | none => rw [lane?_eq_none hc]; rfl
    | some c =>
      refine absurd (hkeys.mem_iff.2 ?_) hk
      exact mem_connectedKeys_of_outbox? (Option.map_eq_some_iff.2 ⟨c, hc, rfl⟩)

theorem lane?_broadcast (h : l.Wired answer config) (changes : Changes) (k : String) :
    (l.broadcast changes none now).lane? k =
      (l.lane? k).bind (Lane.postPatch answer config now l.room.clock changes) := by
  have htargets : (l.room.connectedKeys.filter fun key => some key ≠ none) = l.room.connectedKeys :=
    List.filter_eq_self.2 fun key _ => decide_eq_true (Option.some_ne_none key)
  refine lane?_visited (P := fun l' => l'.Wired answer config ∧ l'.room.clock = l.room.clock)
    (fun l' key h => ?_) (fun l' key k h => ?_) ⟨h, rfl⟩ ?_ k
  · exact ⟨(delivery_wired now).sendPatch l' changes key h.1,
      ((l'.steady_sendPatch changes now key).clock).trans h.2⟩
  · rw [← h.2]
    exact lane?_sendPatch h.1 changes key k
  · rw [htargets]
    exact Host.visit_perm ..

theorem lane?_dropPresence? (h : l.Wired answer config) (id? : Option RecordId) (k : String) :
    (l.dropPresence? id? now).lane? k = (l.lane? k).bind
      (Lane.withdraw answer config now l.room.clock
        (id?.filter l.room.presence.contains).toList) := by
  have hnone : l.lane? k = (l.lane? k).bind (Lane.withdraw answer config now l.room.clock []) := by
    cases l.lane? k <;> rfl
  cases id? with
  | none => exact hnone
  | some id =>
    rw [dropPresence?, dropPresence, Option.filter_some]
    by_cases hid : l.room.presence.contains id = true
    · rw [if_pos hid, if_pos hid]
      let dropped : LiveRoom (Journal Switchboard) := ⟨{ l.room with
        presence := l.room.presence.erase id
        store := l.room.store.advance }, l.host⟩
      have hdropped : dropped.Wired answer config := ⟨h.answer, h.config, h.distinct⟩
      refine (lane?_broadcast hdropped _ k).trans ?_
      change (l.lane? k).bind _ = _
      refine congrArg _ (funext fun lane => ?_)
      change _ = (lane.postPatch answer config now (l.room.clock + 1) _).bind some
      rw [Option.bind_fun_some]
      rfl
    · rw [if_neg hid, if_neg hid]
      exact hnone

theorem lane?_left (l : LiveRoom (Journal Switchboard)) (key k : String) (s : Session) :
    (l.left key s).lane? k = if k = key then none else l.lane? k := by
  have hhost : ∀ t, (l.left key s).host.host.count t = l.host.host.count t ∧
      (l.left key s).host.taken t = l.host.taken t := fun t => by
    refine ⟨?_, l.taken_left key s t⟩
    rw [left]
    cases s.socket? with
    | none => rfl
    | some socket => exact l.host.host.count_close socket t
  have hsession : (l.left key s).room.session? k = if k = key then none else l.room.session? k := by
    rw [room_left, session?_without]
  by_cases hk : k = key
  · rw [if_pos hk] at hsession ⊢
    rw [lane?, Room.connected?, hsession]
    rfl
  · rw [if_neg hk] at hsession ⊢
    exact lane?_congr (connected?_congr hsession) fun c _ => hhost c.socket

theorem lane?_expireSession (h : l.Wired answer config) (e : String × Expiry) (k : String) :
    (expireSession now l e).lane? k = if k = e.1 then none else
      (l.lane? k).bind
        (Lane.withdraw answer config now l.room.clock (l.room.withdrawn? e).toList) := by
  have hremove : ∀ cause, (l.remove e.1 cause now).lane? k = if k = e.1 then none else
      (l.lane? k).bind (Lane.withdraw answer config now l.room.clock
        (((l.room.session? e.1).bind Session.presenceId).filter
          l.room.presence.contains).toList) := by
    intro cause
    cases hs : l.room.session? e.1 with
    | none =>
      have hnone : l.remove e.1 cause now = l := by rw [remove, hs]
      rw [hnone]
      split
      · rename_i hk
        exact lane?_eq_none (by rw [hk, Room.connected?, hs]; rfl)
      · cases l.lane? k <;> rfl
    | some s =>
      have hleft : (l.left e.1 s).Wired answer config := by
        refine h.inherits ?_ ?_ ?_
        · rw [left]
          cases s.socket? <;> exact h.answer
        · rw [room_left]
          rfl
        · rw [room_left]
          exact (l.room.quiet_without e.1).inherits
      rw [remove_eq hs]
      refine (lane?_dropPresence? hleft s.presenceId k).trans ?_
      rw [lane?_left, room_left]
      split
      · rfl
      · rfl
  rw [expireSession, withdrawn?]
  cases e.2 with
  | startTimeout => exact hremove _
  | removalGrace => exact hremove _
  | idle =>
    refine (lane?_cancel ..).trans ?_
    split
    · rfl
    · cases l.lane? k <;> rfl

theorem rests_expireSession (l : LiveRoom (Journal Switchboard)) (now : Nat)
    (e : String × Expiry) :
    (l.room.dropped (l.room.withdrawn? e)).Rests (expireSession now l e).room := by
  have hremove : ∀ cause, (l.room.dropped (((l.room.session? e.1).bind Session.presenceId).filter
      l.room.presence.contains)).Rests (l.remove e.1 cause now).room := by
    intro cause
    rw [dropped_filter]
    cases hs : l.room.session? e.1 with
    | none =>
      rw [remove, hs]
      exact ⟨rfl, rfl, rfl⟩
    | some s =>
      exact ((l.room.quiet_without e.1).rests.dropped s.presenceId).trans
        (l.steady_remove hs cause now).rests
  rw [expireSession, withdrawn?]
  cases e.2 with
  | startTimeout => exact hremove _
  | removalGrace => exact hremove _
  | idle => exact (l.steady_cancel e.1 .idleTimeout now).rests

theorem Wired.expireSession (h : l.Wired answer config) (e : String × Expiry) :
    (expireSession now l e).Wired answer config := by
  have ht := l.turn_expireSession now e
  exact h.inherits (ht.host (keeps_answer answer) h.answer)
    ((l.rests_expireSession now e).config.trans (l.room.config_dropped _))
    (ht.sockets fun _ _ he => by cases he)

theorem presenceId_expireSession (l : LiveRoom (Journal Switchboard)) (now : Nat)
    (e : String × Expiry) (hk : k ≠ e.1) :
    ((expireSession now l e).room.session? k).bind Session.presenceId =
      (l.room.session? k).bind Session.presenceId := by
  have h := l.weathers_tracedExpire now e
  rw [live_tracedExpire] at h
  cases hs : l.room.session? k with
  | none => rw [h.absent k hs]
  | some s =>
    obtain ⟨s', hs', hfares⟩ := h.stays k s (fun hgone => hk hgone.2) hs
    rw [hs']
    cases hfares <;> rfl

theorem withdrawn?_expireSession (hp : l.room.Placed) (now : Nat) {e e' : String × Expiry}
    (hne : e'.1 ≠ e.1) : (expireSession now l e).room.withdrawn? e' = l.room.withdrawn? e' := by
  rw [withdrawn?, withdrawn?, presenceId_expireSession l now e hne]
  cases hid : (l.room.session? e'.1).bind Session.presenceId with
  | none => rfl
  | some id =>
    obtain ⟨s', hs', hid⟩ := Option.bind_eq_some_iff.1 hid
    have hkept : l.room.withdrawn? e ≠ some id := fun he => by
      rw [withdrawn?] at he
      split at he
      · cases he
      · obtain ⟨s, hs, hid'⟩ := Option.bind_eq_some_iff.1 (Option.filter_eq_some_iff.1 he).1
        exact hne (hp.apart e'.1 e.1 s' s id hs' hs hid hid')
    have hcontains : (expireSession now l e).room.presence.contains id =
        l.room.presence.contains id := by
      rw [Bool.eq_iff_iff, contains_iff, contains_iff, (l.rests_expireSession now e).presence,
        get?_presence_dropped, if_neg hkept]
    rw [Option.filter_some, Option.filter_some, hcontains]

theorem filterMap_withdrawn?_expireSession (hp : l.room.Placed) (now : Nat) {e : String × Expiry}
    {es : List (String × Expiry)} (hnodup : ((e :: es).map Prod.fst).Nodup) :
    es.filterMap (expireSession now l e).room.withdrawn? = es.filterMap l.room.withdrawn? := by
  refine List.filterMap_congr fun e' he' => withdrawn?_expireSession hp now fun he => ?_
  exact (List.nodup_cons.1 hnodup).1 (he ▸ List.mem_map_of_mem he')

theorem filterMap_withdrawn?_cons (r : Room) (e : String × Expiry) (es : List (String × Expiry)) :
    (e :: es).filterMap r.withdrawn? = (r.withdrawn? e).toList ++ es.filterMap r.withdrawn? := by
  rw [List.filterMap_cons]
  cases r.withdrawn? e <;> rfl

theorem rests_expirations (hp : l.room.Placed) (now : Nat) {es : List (String × Expiry)}
    (hnodup : (es.map Prod.fst).Nodup) :
    (l.room.droppedAll (es.filterMap l.room.withdrawn?)).Rests
      (es.foldl (expireSession now) l).room := by
  induction es generalizing l with
  | nil => exact ⟨rfl, rfl, rfl⟩
  | cons e es ih =>
    have hrest := ih ((l.turn_expireSession now e).placed hp) (List.nodup_cons.1 hnodup).2
    rw [filterMap_withdrawn?_expireSession hp now hnodup] at hrest
    rw [filterMap_withdrawn?_cons, droppedAll_cons]
    exact ((l.rests_expireSession now e).droppedAll _).trans hrest

/-- A session notices the timers of the others by the presence records that go. -/
theorem lane?_expirations (h : l.Wired answer config) (hp : l.room.Placed)
    {es : List (String × Expiry)} (hnodup : (es.map Prod.fst).Nodup) (k : String) :
    (es.foldl (expireSession now) l).lane? k = if k ∈ es.map Prod.fst then none else
      (l.lane? k).bind (Lane.withdraw answer config now l.room.clock
        (es.filterMap l.room.withdrawn?)) := by
  induction es generalizing l with
  | nil =>
    rw [List.foldl_nil, List.map_nil, if_neg List.not_mem_nil]
    cases l.lane? k <;> rfl
  | cons e es ih =>
    have hturn := l.turn_expireSession now e
    have hrests := l.rests_expireSession now e
    have hclock : (expireSession now l e).room.clock =
        l.room.clock + (l.room.withdrawn? e).toList.length :=
      (congrArg Store.clock hrests.store).trans (l.room.clock_withdrawn e)
    rw [List.foldl_cons, ih (h.expireSession e) (hturn.placed hp)
      (List.nodup_cons.1 hnodup).2, filterMap_withdrawn?_expireSession hp now hnodup, hclock,
      lane?_expireSession h, filterMap_withdrawn?_cons]
    by_cases hk : k = e.1
    · have hmem : k ∈ (e :: es).map Prod.fst := hk ▸ List.mem_cons_self
      rw [if_pos hk, if_pos hmem]
      split <;> rfl
    · have hmem : k ∈ (e :: es).map Prod.fst ↔ k ∈ es.map Prod.fst :=
        List.mem_cons.trans (or_iff_right hk)
      rw [if_neg hk, Option.bind_assoc]
      simp only [hmem]
      split
      · rfl
      · exact congrArg _ (funext fun lane => (Lane.withdraw_append ..).symm)

theorem nodup_expired (l : LiveRoom (Journal Switchboard)) (now : Nat) :
    ((l.expired now).map Prod.fst).Nodup := by
  rw [List.Nodup, List.pairwise_map, expired, List.pairwise_filterMap]
  refine List.Pairwise.imp (fun hne e he e' he' => ?_)
    ((Host.visit_perm ..).nodup_iff.2 (keys_nodup _))
  obtain ⟨_, -, rfl⟩ := Option.map_eq_some_iff.1 he
  obtain ⟨_, -, rfl⟩ := Option.map_eq_some_iff.1 he'
  exact hne

theorem mem_expired_keys : k ∈ (l.expired now).map Prod.fst ↔ (l.room.overdue? now k).isSome := by
  rw [List.mem_map, Option.isSome_iff_exists]
  constructor
  · rintro ⟨⟨_, expiry⟩, he, rfl⟩
    exact ⟨expiry, mem_expired.1 he⟩
  · rintro ⟨expiry, he⟩
    exact ⟨(k, expiry), mem_expired.2 he, rfl⟩

theorem wired_purged (h : l.Wired answer config) (now : Nat) :
    (l.purged now).Wired answer config :=
  l.foldl_related (R := fun l l' => l.Wired answer config → l'.Wired answer config) (fun _ => id)
    (fun h h' => h' ∘ h) (fun _ e h => h.expireSession e) (l.expired now) h

theorem lane?_swept (h : l.Wired answer config) (hp : l.room.Placed) (now : Nat) (k : String) :
    (l.swept now).lane? k = if (l.room.overdue? now k).isSome then none else
      ((l.lane? k).bind (Lane.withdraw answer config now l.room.clock
        ((l.expired now).filterMap l.room.withdrawn?))).bind (Lane.flush answer config now) := by
  have hflushed : (l.swept now).lane? k =
      ((l.purged now).lane? k).bind (Lane.flush answer config now) := by
    refine lane?_visited (P := Wired answer config) (fun l key => ?_) (fun l key k h => ?_)
      (wired_purged h now) (Host.visit_perm ..) k
    · exact (delivery_wired now).flushSession l key
    · exact lane?_flushSession h key k
  rw [hflushed, purged, lane?_expirations h hp (l.nodup_expired now)]
  simp only [mem_expired_keys]
  split <;> rfl

theorem rests_swept (hp : l.room.Placed) (now : Nat) :
    (l.room.droppedAll ((l.expired now).filterMap l.room.withdrawn?)).Rests (l.swept now).room := by
  have hflushed : (l.purged now).room.Steady (l.swept now).room :=
    (delivery_steady now).foldl (l.purged now) (fun l key => l.steady_flushSession now key) _
  exact (rests_expirations hp now (l.nodup_expired now)).trans hflushed.rests

end LiveRoom

end RoomSync
