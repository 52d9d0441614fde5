import Mathlib.Data.List.Basic
import RoomSync.Proofs.Outbox
import RoomSync.Proofs.Room.Journal
import RoomSync.Proofs.Room.Reception

namespace RoomSync

open Table Room

/-- What becomes of a connected session that is handed changes, and what is done with its socket: it
holds the patch back, or its socket takes it, or the session is cancelled, because its socket does
not take it or because too much is held back already. -/
inductive Session.Handed (changes : Changes) (clock now : Nat) (config : Config) :
    Session → Session → List (SocketId × Dealing) → Prop
  | held {s : Session} {c : Connected} {patch : Patch} {outbox : Outbox} :
      s.state = .connected c → patch = c.outbox.patchTo clock changes →
      c.outbox.enqueue (.patch patch) now config = (outbox, .held) →
      outbox.held = c.outbox.held ++ [.patch patch] →
      Handed changes clock now config s { s with state := .connected { c with outbox } } []
  | took {s : Session} {c : Connected} {patch : Patch} {outbox : Outbox} :
      s.state = .connected c → patch = c.outbox.patchTo clock changes →
      c.outbox.enqueue (.patch patch) now config = (outbox, .send [.patch patch]) →
      Handed changes clock now config s { s with state := .connected { c with outbox } }
        [(c.socket, .took (.data [.patch patch]))]
  | refused {s : Session} {c : Connected} {patch : Patch} {outbox : Outbox} :
      s.state = .connected c → patch = c.outbox.patchTo clock changes →
      c.outbox.enqueue (.patch patch) now config = (outbox, .send [.patch patch]) →
      Handed changes clock now config s { s with state := .awaitingRemoval now }
        [(c.socket, .refused (.data [.patch patch])), (c.socket, .closed)]
  | overflow {s : Session} {c : Connected} {patch : Patch} {outbox : Outbox} :
      s.state = .connected c → patch = c.outbox.patchTo clock changes →
      c.outbox.enqueue (.patch patch) now config = (outbox, .overflow) →
      Handed changes clock now config s { s with state := .awaitingRemoval now }
        [(c.socket, .closed)]

def withdrawal (id? : Option RecordId) : Changes :=
  id?.elim Table.empty fun id => Table.empty.insert id .remove

namespace Room

theorem seated_seated (r : Room) (key : String) (s s' : Session) :
    (r.seated key s).seated key s' = r.seated key s' := by
  have hsame : (r.sessions.insert key s).insert key s' = r.sessions.insert key s' := by
    apply Table.ext
    intro k
    rw [get?_insert, get?_insert, get?_insert]
    split <;> rfl
  rw [seated, seated, seated, hsame]

theorem modifySession_of_some {r : Room} {key : String} {s : Session}
    (h : r.session? key = some s) (f : Session → Session) :
    r.modifySession key f = r.seated key (f s) := by
  rw [modifySession, Table.modify, show r.sessions.get? key = some s from h]
  rfl

theorem connectedKeys_without (r : Room) (key : String) :
    (r.without key).connectedKeys.Perm (r.connectedKeys.filter fun k => k ≠ key) := by
  have hnodup : r.connectedKeys.Nodup := keys_nodup _
  have hnodup' : (r.without key).connectedKeys.Nodup := keys_nodup _
  refine (List.perm_ext_iff_of_nodup hnodup' (hnodup.filter _)).2 fun k => ?_
  rw [mem_connectedKeys, List.mem_filter, mem_connectedKeys, session?_without]
  by_cases hk : k = key <;> simp [hk]

end Room

namespace LiveRoom

variable {σ : Type} [Host σ] {l l' : LiveRoom (Journal σ)} {changes : Changes} {now : Nat}
  {key : String}

theorem sendPatch_hands {s : Session} {c : Connected} (hs : l.room.session? key = some s)
    (hc : s.state = .connected c) (changes : Changes) (now : Nat) :
    ∃ s' dealt events, s.Handed changes l.room.clock now l.room.config s' dealt ∧
      (sendPatch changes now l key).room = { l.room.seated key s' with events } ∧
      (sendPatch changes now l key).host.entries = l.host.entries ++ dealt := by
  let patch := c.outbox.patchTo l.room.clock changes
  let outbox := (c.outbox.enqueue (.patch patch) now l.room.config).1
  let s₁ : Session := { s with state := .connected { c with outbox } }
  have hconnected := connected?_eq_some.2 ⟨s, hs, hc⟩
  have hset : l.setOutbox key outbox = ⟨l.room.seated key s₁, l.host⟩ := by
    rw [setOutbox, modifySession_of_some hs, Session.mapConnected, hc]
  have hs₁ : (l.room.seated key s₁).session? key = some s₁ := (session?_seated ..).trans (if_pos rfl)
  have hcancel : ∀ (host : Journal σ) cause,
      cancel ⟨l.room.seated key s₁, host⟩ key cause now =
        ⟨(l.room.seated key { s with state := .awaitingRemoval now }).note (.cancelled key cause),
          Host.close host c.socket⟩ := by
    intro host cause
    have he := cancel_of_connected (⟨l.room.seated key s₁, host⟩ : LiveRoom (Journal σ)) cause now
      hs₁ rfl
    rw [he, seated_seated]
  unfold sendPatch
  rw [hconnected]
  dsimp only
  unfold sendData
  rw [hconnected]
  dsimp only
  rw [show l.setOutbox key (c.outbox.enqueue (.patch patch) now l.room.config).1 = _ from hset]
  obtain hp | ⟨hp, hheld⟩ | ⟨hp, -, -⟩ :=
    c.outbox.enqueue_posting (.patch patch) now l.room.config <;>
    rw [show (c.outbox.enqueue (.patch patch) now l.room.config).2 = _ from hp]
  · dsimp only
    rw [hcancel]
    exact ⟨_, _, _, .overflow hc rfl (Prod.ext rfl hp), rfl, rfl⟩
  · exact ⟨_, _, _, .held hc rfl (Prod.ext rfl hp) hheld, rfl, (List.append_nil _).symm⟩
  · dsimp only
    have hentries := l.host.entries_send c.socket (.data [.patch patch])
    obtain ⟨htook, he⟩ | ⟨hrefused, cause, he⟩ :=
      @sendFrame_cases _ ⟨l.room.seated key s₁, l.host⟩ _ key now c.socket (.data [.patch patch]) <;>
      rw [he]
    · rw [if_pos htook] at hentries
      exact ⟨_, _, _, .took hc rfl (Prod.ext rfl hp), rfl, hentries⟩
    · rw [if_neg hrefused] at hentries
      rw [hcancel]
      refine ⟨_, _, _, .refused hc rfl (Prod.ext rfl hp), rfl, ?_⟩
      change (Host.send l.host c.socket _).1.entries ++ [(c.socket, .closed)] = _
      rw [hentries, List.append_assoc]
      rfl

/-- Sessions were handed changes one after the other, and nothing else happened. -/
structure Posts (changes : Changes) (now : Nat) (order : List String)
    (dealt : String → List (SocketId × Dealing)) (l l' : LiveRoom (Journal σ)) : Prop where
  rest : l'.room = { l.room with sessions := l'.room.sessions, events := l'.room.events }
  entries : l'.host.entries = l.host.entries ++ order.flatMap dealt
  told : ∀ k ∈ order, ∃ s s', l.room.session? k = some s ∧ l'.room.session? k = some s' ∧
    s.Handed changes l.room.clock now l.room.config s' (dealt k)
  untold : ∀ k, k ∉ order → l'.room.session? k = l.room.session? k

theorem posts_foldl {order : List String} (hnodup : order.Nodup)
    (hconnected : ∀ k ∈ order, ∃ c, l.room.connected? k = some c) (changes : Changes) (now : Nat) :
    ∃ dealt, Posts changes now order dealt l (order.foldl (sendPatch changes now) l) := by
  induction order generalizing l with
  | nil => exact ⟨fun _ => [], rfl, (List.append_nil _).symm, nofun, fun _ _ => rfl⟩
  | cons key order ih =>
    obtain ⟨hkey, hnodup⟩ := List.nodup_cons.1 hnodup
    obtain ⟨c, hc⟩ := hconnected key List.mem_cons_self
    obtain ⟨s, hs, hstate⟩ := connected?_eq_some.1 hc
    obtain ⟨s', first, events, hhanded, hroom, hentries⟩ := sendPatch_hands hs hstate changes now
    have hsession : ∀ k, (sendPatch changes now l key).room.session? k =
        if k = key then some s' else l.room.session? k := by
      intro k
      rw [hroom]
      exact session?_seated ..
    obtain ⟨dealt, h⟩ := ih (l := sendPatch changes now l key) hnodup fun k hk => by
      have hne : k ≠ key := fun he => hkey (he ▸ hk)
      rw [connected?, hsession, if_neg hne]
      exact hconnected k (List.mem_cons_of_mem _ hk)
    have hclock : (sendPatch changes now l key).room.clock = l.room.clock := by rw [hroom]; rfl
    have hconfig : (sendPatch changes now l key).room.config = l.room.config := by rw [hroom]; rfl
    rw [List.foldl_cons]
    refine ⟨fun k => if k = key then first else dealt k, ?_, ?_, fun k hk => ?_, fun k hk => ?_⟩
    · refine h.rest.trans ?_
      rw [hroom]
      rfl
    · have hdealt : ∀ k ∈ order, (if k = key then first else dealt k) = dealt k :=
        fun k hk => if_neg fun he : k = key => hkey (he ▸ hk)
      rw [h.entries, hentries, List.flatMap_cons, if_pos rfl, List.append_assoc,
        List.flatMap_congr hdealt]
    · obtain rfl | hk := List.mem_cons.1 hk
      · refine ⟨s, s', hs, ?_, by rwa [if_pos rfl]⟩
        rw [h.untold k hkey, hsession, if_pos rfl]
      · have hne : k ≠ key := fun he => hkey (he ▸ hk)
        obtain ⟨t, t', ht, ht', hhanded⟩ := h.told k hk
        rw [hsession, if_neg hne] at ht
        rw [hclock, hconfig] at hhanded
        exact ⟨t, t', ht, ht', by rwa [if_neg hne]⟩
    · rw [h.untold k (fun hm => hk (List.mem_cons_of_mem _ hm)), hsession,
        if_neg fun he : k = key => hk (he ▸ List.mem_cons_self)]

theorem posts_dropPresence? (l : LiveRoom (Journal σ)) (id? : Option RecordId) (now : Nat) :
    ∃ order dealt,
      order.Perm (if id?.any l.room.presence.contains then l.room.connectedKeys else []) ∧
      Posts (withdrawal id?) now order dealt ⟨l.room.dropped id?, l.host⟩
        (l.dropPresence? id? now) := by
  have hnothing : ∀ changes, Posts changes now [] (fun _ => []) l l :=
    fun changes => ⟨rfl, (List.append_nil _).symm, nofun, fun _ _ => rfl⟩
  cases id? with
  | none => exact ⟨[], _, List.Perm.refl _, hnothing _⟩
  | some id =>
    by_cases hid : l.room.presence.contains id = true
    · let r := l.room.dropped (some id)
      have hdropped : l.dropPresence? (some id) now =
          broadcast ⟨r, l.host⟩ (Table.empty.insert id .remove) none now := by
        simp only [dropPresence?, dropPresence, r, dropped, hid, if_true]
      have hkeys : r.connectedKeys = l.room.connectedKeys :=
        congrArg (fun sessions => (sessions.filter fun _ s => s.isConnected).keys)
          (l.room.sessions_dropped _)
      have hall : (r.connectedKeys.filter fun key => some key ≠ none) = r.connectedKeys :=
        List.filter_eq_self.2 fun _ _ => rfl
      have hperm := Host.visit_perm l.host r.connectedKeys
      have hnodup : r.connectedKeys.Nodup := keys_nodup _
      obtain ⟨dealt, h⟩ := posts_foldl (l := ⟨r, l.host⟩) (hperm.nodup_iff.2 hnodup)
        (fun k hk => mem_connectedKeys_iff.1 (hperm.mem_iff.1 hk))
        (Table.empty.insert id .remove) now
      refine ⟨Host.visit l.host r.connectedKeys, dealt, ?_, ?_⟩
      · rw [Option.any_some, if_pos hid, ← hkeys]
        exact hperm
      · rw [hdropped, broadcast]
        dsimp only
        rw [hall]
        exact h
    · have hsame : l.room.dropped (some id) = l.room := if_neg hid
      have hkept : l.dropPresence? (some id) now = l := if_neg hid
      refine ⟨[], fun _ => [], ?_, ?_⟩
      · rw [Option.any_some, if_neg hid]
      · rw [hsame, hkept]
        exact hnothing _

/-- A session has left the room for an error. Its socket took the reason or not and was closed; its
presence is gone, which the other connected sessions were told of, one after the other; and nothing
else is different. -/
structure Confined (key : String) (s : Session) (now : Nat) (order : List String)
    (dealt : String → List (SocketId × Dealing)) (l l' : LiveRoom (Journal σ)) : Prop where
  gone : l'.room.session? key = none
  entries : ∃ socket reason last, s.socket? = some socket ∧ reason.isFarewell = true ∧
    (last = .took reason ∨ last = .refused reason) ∧
    l'.host.entries =
      l.host.entries ++ [(socket, last), (socket, .closed)] ++ order.flatMap dealt
  hidden : ∀ id, s.presenceId = some id → l'.room.presence.get? id = none
  shown : ∀ id, s.presenceId ≠ some id → l'.room.presence.get? id = l.room.presence.get? id
  clock : l'.room.clock =
    l.room.clock + if s.presenceId.any l.room.presence.contains then 1 else 0
  store : l'.room.store = { l.room.store with clock := l'.room.clock }
  forbidden : l'.room.forbidden = l.room.forbidden
  config : l'.room.config = l.room.config
  everyone : order.Perm (if s.presenceId.any l.room.presence.contains
    then l.room.connectedKeys.filter fun k => k ≠ key else [])
  told : ∀ k ∈ order, ∃ t t', l.room.session? k = some t ∧ l'.room.session? k = some t' ∧
    t.Handed (withdrawal s.presenceId) l'.room.clock now l.room.config t' (dealt k)
  untold : ∀ k, k ∉ order → k ≠ key → l'.room.session? k = l.room.session? k

theorem entries_left (l : LiveRoom (Journal σ)) (key : String) {s : Session} {socket : SocketId}
    (hsocket : s.socket? = some socket) (msg : ServerMessage) :
    ((l.tell socket msg).left key s).host.entries = l.host.entries ++
      [(socket, if (Host.send l.host socket msg).2 = none then .took msg else .refused msg),
        (socket, .closed)] := by
  rw [left, hsocket]
  change (Host.send l.host socket msg).1.entries ++ [(socket, .closed)] = _
  rw [l.host.entries_send, List.append_assoc]
  rfl

theorem confined_remove {s : Session} {socket : SocketId} (hs : l.room.session? key = some s)
    (hsocket : s.socket? = some socket) {msg : ServerMessage} (hmsg : msg.isFarewell = true)
    (cause : RemovalCause) (now : Nat) :
    ∃ order dealt,
      Confined key s now order dealt l ((l.tell socket msg).remove key cause now) := by
  let l₁ := (l.tell socket msg).left key s
  let r := l.room.without key
  have hroom : l₁.room = r := room_left ..
  have hentries := l.entries_left key hsocket msg
  obtain ⟨order, dealt, horder, h⟩ := posts_dropPresence? l₁ s.presenceId now
  obtain ⟨hclock, hstore, hforbidden⟩ := dropped_frame r s.presenceId
  have hdropped := get?_presence_dropped r s.presenceId
  rw [hroom] at horder h
  generalize hl₂ : l₁.dropPresence? s.presenceId now = l₂ at h
  have hl : (l.tell socket msg).remove key cause now = l₂.note (.removed key cause) := by
    rw [remove_eq (l := l.tell socket msg) hs, hl₂]
  have hstore₂ : l₂.room.store = (r.dropped s.presenceId).store := by rw [h.rest]
  have hclock₂ : l₂.room.clock = (r.dropped s.presenceId).clock := congrArg Store.clock hstore₂
  have hpresence₂ : ∀ id, l₂.room.presence.get? id =
      if s.presenceId = some id then none else l.room.presence.get? id :=
    fun id => (congrArg (·.presence.get? id) h.rest).trans (hdropped id)
  have hsession : ∀ k, (r.dropped s.presenceId).session? k =
      if k = key then none else l.room.session? k :=
    fun k => (session?_dropped ..).trans (session?_without ..)
  have hconfig : (r.dropped s.presenceId).config = l.room.config := config_dropped ..
  have hkey : key ∉ order := by
    intro hk
    have hmem := horder.mem_iff.1 hk
    split at hmem
    · obtain ⟨t, ht, -⟩ := mem_connectedKeys.1 hmem
      rw [session?_without, if_pos rfl] at ht
      cases ht
    · cases hmem
  refine ⟨order, dealt, ?_⟩
  rw [hl]
  exact {
    gone := (h.untold key hkey).trans ((hsession key).trans (if_pos rfl))
    entries := by
      refine ⟨socket, msg, _, hsocket, hmsg, ?_, h.entries.trans (congrArg (· ++ _) hentries)⟩
      split
      · exact .inl rfl
      · exact .inr rfl
    hidden := fun id hid => (hpresence₂ id).trans (if_pos hid)
    shown := fun id hid => (hpresence₂ id).trans (if_neg hid)
    clock := hclock₂.trans hclock
    store := by
      change l₂.room.store = { l.room.store with clock := l₂.room.clock }
      rw [hclock₂, hstore₂, hstore]
      rfl
    forbidden := (congrArg Room.forbidden h.rest).trans hforbidden
    config := (congrArg Room.config h.rest).trans hconfig
    everyone := by
      have horder : order.Perm (if s.presenceId.any l.room.presence.contains
        then r.connectedKeys else []) := horder
      by_cases hany : s.presenceId.any l.room.presence.contains = true
      · rw [if_pos hany] at horder ⊢
        exact horder.trans (l.room.connectedKeys_without key)
      · rw [if_neg hany] at horder ⊢
        exact horder
    told := fun k hk => by
      obtain ⟨t, t', ht, ht', hhanded⟩ := h.told k hk
      have hne : k ≠ key := fun he => hkey (he ▸ hk)
      have hbefore : l.room.session? k = some t := by rwa [hsession, if_neg hne] at ht
      refine ⟨t, t', hbefore, ht', ?_⟩
      have hclock₂ : (l₂.note (.removed key cause)).room.clock = (r.dropped s.presenceId).clock :=
        hclock₂
      rw [hclock₂, ← hconfig]
      exact hhanded
    untold := fun k hk hne => (h.untold k hk).trans ((hsession k).trans (if_neg hne)) }

end LiveRoom

/-- Whatever a session sends, an error ends this session and touches nothing else in the room. A
handshake or a push that comes under a wrong key or out of turn, but not in a frame, does not even
end its session. -/
theorem errors_confined {σ : Type} [Host σ] (l : LiveRoom (Journal σ)) (key : String) (now : Nat) :
    (∀ frame error, (l.receive key frame now).2 = .error error →
      (l.room.session? key = none ∧ (l.receive key frame now).1 = l) ∨
        ∃ s order dealt, l.room.session? key = some s ∧
          LiveRoom.Confined key s now order dealt l (l.receive key frame now).1) ∧
      (∀ request error, (l.connect key request now).2 = .error error →
        error.isMisplaced = true → (l.connect key request now).1 = l) ∧
      ∀ push error, (l.receivePush key push now).2 = .error error →
        error.isMisplaced = true ∧ (l.receivePush key push now).1 = l := by
  refine ⟨fun frame error herror => ?_, fun request error herror hmisplaced => ?_,
    fun push error herror => ?_⟩
  · have hr := l.reception key frame now
    generalize l.receive key frame now = answer at hr herror
    cases hr with
    | unknown hs => exact .inl ⟨hs, rfl⟩
    | ended cause _ hs hsocket hmsg =>
      obtain ⟨order, dealt, hconfined⟩ := LiveRoom.confined_remove hs hsocket hmsg cause now
      exact .inr ⟨_, order, dealt, hs, hconfined⟩
    | ignored | greets | serves | pongs => cases herror
  · obtain ⟨_, -, he⟩ | ⟨_, _, _, _, e, -, -, -, hplaced, he⟩ | ⟨s, waiting, ha⟩ :=
      l.connect_cases now key request
    · exact congrArg Prod.fst he
    · rw [he] at herror
      obtain rfl := Except.error.inj herror
      cases hplaced.symm.trans hmisplaced
    · rw [ha.connect] at herror
      cases herror
  · obtain ⟨e, hmisplaced, he⟩ | ⟨s, hs, hc, hkey⟩ := l.receivePush_cases now key push
    · rw [he] at herror ⊢
      exact ⟨Except.error.inj herror ▸ hmisplaced, rfl⟩
    · rw [l.receivePush_of_connected now hs hc hkey] at herror
      cases herror

end RoomSync
