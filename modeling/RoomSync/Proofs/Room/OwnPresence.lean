import RoomSync.Proofs.Room.Observer
import RoomSync.Proofs.Room.Past
import RoomSync.Proofs.Room.Progress
import RoomSync.Proofs.Room.Veil

namespace RoomSync

open Table Room

namespace Room

variable {r : Room} {own : RecordId}

/-- A push with a presence that the schema refuses, of a session that has a presence record. -/
structure Exposes (r : Room) (own : RecordId) (push : Push) : Prop where
  refused : ∃ content reason, push.presence = some content ∧
    r.config.schema.checkPresence content = .error reason
  recorded : (r.presence.get? own).isSome = true

theorem current_of_turnedDown (hown : r.isPresenceId own = true) {mutations : List Mutation}
    {rejection : Rejection} (hr : rejection ∈ r.turnedDown (some own) mutations)
    (hid : rejection.recordId = own) : rejection.current = none := by
  obtain hr | hr := List.mem_append.1 hr
  · obtain ⟨m, -, rfl⟩ := List.mem_map.1 hr
    exact if_pos (congrArg some hid.symm)
  · obtain ⟨m, hm, hreason⟩ := List.mem_filterMap.1 hr
    obtain ⟨reason, -, rfl⟩ := Option.map_eq_some_iff.1 hreason
    have hplain : ¬r.isPresenceId m.recordId = true := by simpa using (List.mem_filter.1 hm).2
    have hid : m.recordId = own := hid
    exact absurd (hid ▸ hown) hplain

theorem answer_shows_iff (hown : r.isPresenceId own = true) (push : Push) :
    (r.answer (some own) push).Shows own ↔ r.Exposes own push := by
  have hturned : ∀ rejection ∈ r.turnedDown (some own) push.mutations,
      ¬(rejection.recordId = own ∧ rejection.current ≠ none) :=
    fun rejection hr h => h.2 (current_of_turnedDown hown hr h.1)
  by_cases h : ∃ content reason, push.presence = some content ∧
      r.config.schema.checkPresence content = .error reason
  · obtain ⟨content, reason, hp, hc⟩ := h
    have hrejected : (r.answer (some own) push).rejected = _ := rejected_of_refused hp hc
    refine ⟨fun ⟨rejection, hr, hshows⟩ => ⟨⟨content, reason, hp, hc⟩, ?_⟩, fun he => ?_⟩
    · rw [hrejected] at hr
      obtain hr | hr := List.mem_append.1 hr
      · exact absurd hshows (hturned rejection hr)
      · obtain rfl := List.mem_singleton.1 hr
        exact Option.isSome_iff_ne_none.2 hshows.2
    · refine ⟨⟨own, reason, r.presence.get? own⟩, ?_, rfl, Option.isSome_iff_ne_none.1 he.recorded⟩
      exact hrejected ▸ List.mem_append_right _ List.mem_cons_self
  · refine iff_of_false (fun ⟨rejection, hr, hshows⟩ => ?_) fun he => h he.refused
    exact hturned rejection (rejected_of_not_refused h ▸ hr) hshows

theorem Exposes.settle {push : Push} (h : r.Exposes own push) (d : Draft) :
    (d.settle (r.answer (some own) push)).1.replica.get? own ≠ none := by
  obtain ⟨⟨content, reason, hp, hc⟩, hrecorded⟩ := h
  obtain ⟨record, hr⟩ := Option.isSome_iff_exists.1 hrecorded
  have hlast : Entries.last? own (r.answer (some own) push).restores = some (some record) := by
    rw [PushResult.restores, rejected_of_refused hp hc, List.map_append, Entries.last?_append, hr]
    have hlast : Entries.last? own [(own, some record)] = some (some record) := if_pos rfl
    exact congrArg (Option.or · _) hlast
  rw [ne_eq, ← Replica.values_eq_none_iff, Draft.get?_values_settle, hlast]
  exact Option.some_ne_none record.value

end Room

namespace LiveRoom

variable {σ : Type} {l l' : LiveRoom (Journal σ)} {key k : String} {socket : SocketId} {now : Nat}
  {push : Push} {excused : RecordId → PushResult → Prop} {own? : Option RecordId}

/-- If a push shows its session a record of its own, the answer is excused. -/
def Excuses (excused : RecordId → PushResult → Prop) (l : LiveRoom (Journal σ)) (k : String)
    (push : Push) : Prop :=
  ∀ s own, push.sessionKey = k → l.room.session? k = some s → s.isConnected = true →
    s.presenceId = some own → (l.room.answer (some own) push).Shows own →
      excused own (l.room.answer (some own) push)

theorem Excuses.touch (h : l.Excuses excused k push) (k' : String) (now : Nat) :
    Excuses excused { l with room := l.room.modifySession k' (·.touch now) } k push := by
  intro s' own hkey hs' hc hid
  rw [answer_touch]
  rw [session?_modifySession] at hs'
  split at hs'
  · obtain ⟨s, hs, rfl⟩ := Option.map_eq_some_iff.1 hs'
    rw [Session.isConnected_touch] at hc
    rw [Session.presenceId_touch] at hid
    exact h s own hkey hs hc hid
  · exact h s' own hkey hs' hc hid

def Under (l : LiveRoom (Journal σ)) (socket : SocketId) (own : RecordId) : Prop :=
  ∃ key s c, l.room.session? key = some s ∧ s.state = .connected c ∧ c.socket = socket ∧
    s.presenceId = some own

theorem under_of_stage {own : RecordId} {o : Outbox}
    (h : (l.seat key socket).stage = some (.connected (some own) o)) : l.Under socket own := by
  obtain ⟨s, c, hs, hc, hsocket, -, hid⟩ := stage_eq_connected h
  exact ⟨key, s, c, hs, hc, hsocket, hid⟩

theorem Veiled.under (h : l.Veiled excused own? key socket) {own : RecordId}
    (hu : l.Under socket own) : own? = some own := by
  obtain ⟨k, s, c, hs, hc, rfl, hid⟩ := hu
  obtain rfl := h.alone k s hs (by rw [Session.socket?, hc])
  have hstage := (stage_of_connected hs hc c.socket).trans (if_pos rfl)
  rw [← hid]
  exact (h.seat.connected _ _ hstage).1.symm

variable [Host σ]

namespace Veiled

variable (h : l.Veiled excused own? key socket)
include h

theorem receivePush (he : l.Excuses excused k push) (now : Nat) :
    (l.receivePush k push now).1.Veiled excused own? key socket := by
  obtain ⟨_, -, hr⟩ | ⟨s, hs, hc, hkey⟩ := l.receivePush_cases now k push
  · rw [hr]
    exact h
  · have h₁ := h.turn (.touch l k : Turn now .inner l _) id
    have hs₁ : (l.room.modifySession k (·.touch now)).session? k = some (s.touch now) := by
      rw [session?_modifySession, if_pos rfl, hs]
      rfl
    have hc₁ : (s.touch now).isConnected = true := by rwa [Session.isConnected_touch]
    rw [l.receivePush_of_connected now hs hc hkey, ← s.presenceId_touch now]
    by_cases hk : k = key
    · subst hk
      exact h₁.serves hs₁ hc₁ (fun own hid => he.touch k now _ own hkey hs₁ hc₁ hid) now
    · exact h₁.turn (.serves _ hs₁ hc₁ : Turn now _ _ _) fun hconcerns => hk hconcerns.1

theorem concluded (k : String) (result : Except RoomError Unit) (now : Nat) :
    (concluded now k (l, result)).Veiled excused own? key socket := by
  obtain ⟨ms, he, -⟩ := l.brief_concluded now k .inner result
  exact h.turns he.turns

theorem heed_push (he : l.Excuses excused k push) (now : Nat) :
    (l.heed k (.push push) now).Veiled excused own? key socket := by
  rw [heed]
  split
  · rw [hear_eq, dispatch]
    have h₁ := h.turn (.touch l k : Turn now .inner l _) id
    exact (h₁.receivePush (he.touch k now) now).concluded k _ now
  · exact h

theorem episode {deed : Deed} {ms : List Moment} (he : Episode now deed ms l l')
    (hopens : deed.opened? ≠ some socket) (hserves : ∀ k push, deed ≠ .serves k push) :
    ∃ own?', l'.Veiled excused own?' key socket ∧
      (own?' = own? ∨ own? = none ∧ ∃ own, own?' = some own ∧ l'.Under socket own) := by
  cases he with
  | undone ht => exact ⟨own?, h.turns ht, .inl rfl⟩
  | @done _ l₁ _ _ ht hdone =>
    have h₁ := h.turns ht
    by_cases hdeed : deed.Concerns key socket (l₁.seat key socket).stage
    · cases hdone with
      | opens _ k t info => exact absurd (congrArg some hdeed) hopens
      | @serves _ k s push hs hc => exact absurd rfl (hserves k push)
      | @greets _ k s waiting request hs hw hf =>
        obtain ⟨rfl, hstage⟩ := hdeed
        obtain ⟨s', w, hs', hw', hsocket⟩ := stage_eq_waiting hstage
        obtain rfl := Option.some.inj (hs.symm.trans hs')
        obtain rfl := SessionState.awaitingConnect.inj (hw.symm.trans hw')
        obtain h' | ⟨h', o, ho⟩ := h₁.greets hs hw hsocket hf now
        · exact ⟨own?, h', .inl rfl⟩
        · exact ⟨_, h', .inr ⟨h₁.seat.waiting hstage, _, rfl, under_of_stage ho⟩⟩
      | _ => exact hdeed.elim
    · exact ⟨own?, h₁.turn hdone hdeed, .inl rfl⟩

theorem perform {call : Call} (hopens : call.operation.deed.opened? ≠ some socket)
    (he : ∀ k push, call.operation.deed = .serves k push → l.Excuses excused k push) :
    ∃ own?', (l.perform call).Veiled excused own?' key socket ∧
      (own?' = own? ∨ own? = none ∧ ∃ own, own?' = some own ∧ (l.perform call).Under socket own) := by
  by_cases hserves : ∃ k push, call.operation.deed = .serves k push
  · obtain ⟨k, push, hdeed⟩ := hserves
    have hexcuses := he k push hdeed
    obtain ⟨now, operation⟩ := call
    refine ⟨own?, ?_, .inl rfl⟩
    cases operation with
    | push k' push' =>
      obtain ⟨rfl, rfl⟩ := Deed.serves.inj hdeed
      exact h.receivePush hexcuses now
    | receive k' frame =>
      cases hd : ClientMessage.decode frame with
      | error cause =>
        rw [Operation.deed, hd] at hdeed
        cases hdeed
      | ok msg =>
        rw [Operation.deed, hd] at hdeed
        cases msg with
        | push push' =>
          obtain ⟨rfl, rfl⟩ := Deed.serves.inj hdeed
          change (l.receive k' frame now).1.Veiled excused own? key socket
          rw [l.receive_eq_heed now k' hd]
          exact h.heed_push hexcuses now
        | connect _ | ping => cases hdeed
    | _ => cases hdeed
  · obtain ⟨_, hepisode, -⟩ := l.episode_perform call
    exact h.episode hepisode hopens fun k push hdeed => hserves ⟨k, push, hdeed⟩

end Veiled

structure Unopened (l : LiveRoom (Journal σ)) (socket : SocketId) : Prop where
  placed : l.room.Placed
  free : l.Free socket
  taken : l.host.taken socket = []

namespace Unopened

omit [Host σ] in
theorem not_under (h : l.Unopened socket) (own : RecordId) : ¬l.Under socket own := by
  rintro ⟨k, s, c, hs, hc, rfl, -⟩
  exact h.free k s hs (by rw [Session.socket?, hc])

theorem turn (h : l.Unopened socket) {deed : Deed} (ht : Turn now deed l l')
    (hopens : deed.opened? ≠ some socket) : l'.Unopened socket := by
  have hvacant := h.free.stage ""
  have hi := ht.informed h.placed (h.free.alone "") (Seat.at_of_vacant hvacant _) fun hc => by
    cases deed with
    | inner => exact hc
    | opens k t => exact hopens (congrArg some hc)
    | greets k request => cases hvacant.symm.trans hc.2
    | serves k push => exact hc.2 hvacant
  refine ⟨ht.placed h.placed, ht.free h.free fun k he => hopens (he ▸ rfl), ?_⟩
  exact (congrArg Seat.taken (hi.seat_of_vacant hvacant)).trans h.taken

theorem turns (h : l.Unopened socket) {ms : List Moment} (ht : Turns now ms l l') :
    l'.Unopened socket := by
  induction ht with
  | refl l => exact h
  | step ht _ ih => exact ih (h.turn ht nofun)

theorem opens (h : l.Unopened socket) (k : String) (info : Content) (now : Nat) :
    (l.succeed k socket info now).Veiled excused none k socket := by
  have hseat : (l.succeed k socket info now).seat k socket = _ := seat_succeed h.free info now
  have ht : Turn now (.opens k socket) l (l.succeed k socket info now) := .opens l k socket info
  refine ⟨ht.placed h.placed, fun k' s hs hsocket => ?_, ?_, ?_⟩
  · obtain ⟨hk, -⟩ | ⟨-, hold⟩ := sockets_succeed k socket info now hs hsocket
    · exact hk
    · exact absurd hsocket (h.free k' s hold)
  · rw [hseat]
    exact nofun
  · rw [hseat]
    exact ⟨fun _ => rfl, nofun, fun msg hm => absurd (h.taken ▸ hm : msg ∈ []) List.not_mem_nil⟩

theorem perform (h : l.Unopened socket) (excused : RecordId → PushResult → Prop) (call : Call) :
    (call.operation.deed.opened? = some socket →
        ∃ key, (l.perform call).Veiled excused none key socket) ∧
      (call.operation.deed.opened? ≠ some socket → (l.perform call).Unopened socket) := by
  obtain ⟨_, he, -⟩ := l.episode_perform call
  generalize call.operation.deed = deed, l.perform call = l' at he ⊢
  cases he with
  | undone ht =>
    have h' := h.turns ht
    exact ⟨fun _ => ⟨"", h'.free.veiled h'.placed h'.taken ""⟩, fun _ => h'⟩
  | done ht hdone =>
    refine ⟨fun hopens => ?_, fun hopens => (h.turns ht).turn hdone hopens⟩
    cases hdone with
    | opens _ k t info =>
      obtain rfl := Option.some.inj hopens
      exact ⟨k, (h.turns ht).opens k info _⟩
    | _ => cases hopens

end Unopened

def EverUnder (l : LiveRoom (Journal σ)) (calls : List Call) (socket : SocketId)
    (own : RecordId) : Prop :=
  ∃ before after, calls = before ++ after ∧ (l.run before).Under socket own

theorem everUnder_nil {own : RecordId} : l.EverUnder [] socket own ↔ l.Under socket own := by
  refine ⟨fun ⟨before, after, he, hu⟩ => ?_, fun hu => ⟨[], [], rfl, hu⟩⟩
  obtain ⟨rfl, -⟩ := List.append_eq_nil_iff.1 he.symm
  exact hu

theorem everUnder_cons {call : Call} {rest : List Call} {own : RecordId} :
    l.EverUnder (call :: rest) socket own ↔
      l.Under socket own ∨ (l.perform call).EverUnder rest socket own := by
  refine ⟨fun ⟨before, after, he, hu⟩ => ?_, fun h => h.elim (fun hu => ⟨[], _, rfl, hu⟩) ?_⟩
  · cases before with
    | nil => exact .inl hu
    | cons _ before =>
      obtain ⟨rfl, rfl⟩ := List.cons.inj he
      exact .inr ⟨before, after, rfl, hu⟩
  · rintro ⟨before, after, rfl, hu⟩
    exact ⟨call :: before, after, rfl, hu⟩

def ExcusesAll (excused : RecordId → PushResult → Prop) (l : LiveRoom (Journal σ))
    (calls : List Call) : Prop :=
  ∀ before call after k push, calls = before ++ call :: after →
    call.operation.deed = .serves k push → (l.run before).Excuses excused k push

theorem ExcusesAll.tail {call : Call} {rest : List Call} (h : l.ExcusesAll excused (call :: rest)) :
    (l.perform call).ExcusesAll excused rest := fun before next after k push he =>
  h (call :: before) next after k push (congrArg (call :: ·) he)

theorem Veiled.run (h : l.Veiled excused own? key socket) {calls : List Call}
    (hopens : socket ∉ opened calls) (he : l.ExcusesAll excused calls) :
    ∃ own?', (l.run calls).Veiled excused own?' key socket ∧
      ∀ own, own?' = some own ↔ own? = some own ∨ l.EverUnder calls socket own := by
  induction calls generalizing l own? with
  | nil =>
    refine ⟨own?, h, fun own => ⟨.inl, fun hu => hu.elim id fun hu => ?_⟩⟩
    exact h.under (everUnder_nil.1 hu)
  | cons call rest ih =>
    rw [opened_cons, List.mem_append, Option.mem_toList, not_or] at hopens
    obtain ⟨hcall, hrest⟩ := hopens
    obtain ⟨own₁, h₁, hown₁⟩ := h.perform hcall fun k push hd => he [] call rest k push rfl hd
    obtain ⟨own?', h', hown'⟩ := ih h₁ hrest he.tail
    refine ⟨own?', h', fun own => ?_⟩
    rw [hown', everUnder_cons]
    obtain rfl | ⟨rfl, id, rfl, hu⟩ := hown₁
    · exact ⟨fun ho => ho.imp_right .inr,
        fun ho => ho.elim .inl fun ho => ho.imp_left fun hu => h.under hu⟩
    · have hever : (l.perform call).EverUnder rest socket id := ⟨[], rest, rfl, hu⟩
      refine ⟨fun ho => .inr (.inr (ho.elim (fun he => ?_) fun hu => hu)), fun ho => ?_⟩
      · exact Option.some.inj he ▸ hever
      · obtain ho | ho | ho := ho
        · cases ho
        · cases h.under ho
        · exact .inr ho

theorem Unopened.run (h : l.Unopened socket) {calls : List Call} (hnodup : (opened calls).Nodup)
    (he : l.ExcusesAll excused calls) :
    ∃ key own?, (l.run calls).Veiled excused own? key socket ∧
      ∀ own, own? = some own ↔ l.EverUnder calls socket own := by
  induction calls generalizing l with
  | nil =>
    refine ⟨"", none, h.free.veiled h.placed h.taken "", fun own => iff_of_false nofun fun hu => ?_⟩
    exact h.not_under own (everUnder_nil.1 hu)
  | cons call rest ih =>
    rw [opened_cons, List.nodup_append] at hnodup
    obtain ⟨-, hrest, hdisjoint⟩ := hnodup
    have hsplit : ∀ own, l.EverUnder (call :: rest) socket own ↔
        (l.perform call).EverUnder rest socket own := fun own =>
      everUnder_cons.trans (or_iff_right (h.not_under own))
    simp only [hsplit]
    by_cases hcall : call.operation.deed.opened? = some socket
    · obtain ⟨key, h₁⟩ := (h.perform excused call).1 hcall
      have hlate : socket ∉ opened rest := fun hmem =>
        hdisjoint socket (Option.mem_toList.2 hcall) socket hmem rfl
      obtain ⟨own?, h', hown⟩ := h₁.run hlate he.tail
      exact ⟨key, own?, h', fun own => (hown own).trans (or_iff_right nofun)⟩
    · exact ih ((h.perform excused call).2 hcall) hrest he.tail

/-- A result in a run that shows its session the session's own presence record. -/
def Exposed (start : LiveRoom (Journal σ)) (calls : List Call) (own : RecordId)
    (result : PushResult) : Prop :=
  ∃ before call after key push s, calls = before ++ call :: after ∧
    call.operation.deed = .serves key push ∧ push.sessionKey = key ∧
    (start.run before).room.session? key = some s ∧ s.isConnected = true ∧
    s.presenceId = some own ∧ (start.run before).room.Exposes own push ∧
    result = (start.run before).room.answer (some own) push

theorem excusesAll_exposed (start : LiveRoom (Journal σ)) (calls : List Call) :
    start.ExcusesAll (start.Exposed calls) calls := by
  intro before call after key push he hdeed s own hkey hs hc hid hshows
  have hexposes := (answer_shows_iff (isPresenceId_of_session hs hid) push).1 hshows
  exact ⟨before, call, after, key, push, s, he, hdeed, hkey, hs, hc, hid, hexposes, rfl⟩

/-- What sessions, and clients that do not write there, get to see under the presence ids of the
sessions themselves. -/
structure VeilsOwn (start : LiveRoom (Journal σ)) (calls : List Call) : Prop where
  /-- A push is answered with the pusher's own record exactly if its presence is refused while there
  is such a record. -/
  answers : ∀ key s own push now, (start.run calls).room.session? key = some s →
    s.isConnected = true → s.presenceId = some own → push.sessionKey = key →
    ∃ result, ((start.run calls).receivePush key push now).2 = .ok result ∧
      (result.Shows own ↔ (start.run calls).room.Exposes own push)
  /-- States and patches never show a session its own record, and results do only as said. A socket
  whose session never was connected is sent none of these. -/
  sent : (opened calls).Nodup → ∀ socket,
    ∃ own?, (∀ own, own? = some own ↔ start.EverUnder calls socket own) ∧
      ∀ msg ∈ (start.run calls).host.taken socket, msg.Veils (start.Exposed calls) own?
  /-- A client that takes such a result holds the record. -/
  reveals : ∀ own result, start.Exposed calls own result →
    ∀ d : Draft, (d.settle result).1.replica.get? own ≠ none
  /-- A client that is sent what these sessions are sent, and takes no such result, never does. -/
  hides : (opened calls).Nodup → ∀ (d : Draft) own (inputs : List Draft.Input), d.Lacks own →
    (∀ mutations, .push mutations ∈ inputs → ∀ m ∈ mutations, m.recordId ≠ own) →
    (∀ msg, .receive msg ∈ inputs → (∃ socket, start.EverUnder calls socket own ∧
        msg ∈ (start.run calls).host.taken socket) ∧
      ∀ result, .pushResult result ∈ msg.contents → ¬start.Exposed calls own result) →
    (d.takeAll inputs).replica.get? own = none

/-- Whatever the host does with a room and whatever comes in. -/
theorem own_presence_veiled (config : Config) (snapshot : Snapshot) (host : σ)
    (calls : List Call) : VeilsOwn ⟨.ofSnapshot config snapshot, .start host⟩ calls := by
  generalize hstart : (⟨.ofSnapshot config snapshot, .start host⟩ : LiveRoom (Journal σ)) = start
  have hsent : (opened calls).Nodup → ∀ socket,
      ∃ own?, (∀ own, own? = some own ↔ start.EverUnder calls socket own) ∧
        ∀ msg ∈ (start.run calls).host.taken socket, msg.Veils (start.Exposed calls) own? := by
    intro hnodup socket
    have hunopened : start.Unopened socket := by
      subst hstart
      exact ⟨⟨Record.keyed_table snapshot.records, nofun, nofun, nofun, nofun, nofun, nofun⟩, nofun,
        rfl⟩
    obtain ⟨_, own?, h, hown⟩ := hunopened.run hnodup (excusesAll_exposed start calls)
    exact ⟨own?, hown, h.seat.taken⟩
  refine ⟨?_, hsent, ?_, ?_⟩
  · intro key s own push now hs hc hid hkey
    refine ⟨_, congrArg Prod.snd ((start.run calls).receivePush_of_connected now hs hc hkey), ?_⟩
    rw [answer_touch, hid]
    exact answer_shows_iff (isPresenceId_of_session hs hid) push
  · rintro own _ ⟨before, _, _, _, push, _, -, -, -, -, -, -, hexposes, rfl⟩ d
    exact hexposes.settle d
  · intro hnodup d own inputs hlacks hpush hreceive
    refine (hlacks.takeAll hpush fun msg hm => ?_).replica
    obtain ⟨⟨socket, hunder, htaken⟩, hnone⟩ := hreceive msg hm
    obtain ⟨own?, hown, hveils⟩ := hsent hnodup socket
    obtain rfl := (hown own).2 hunder
    exact (hveils msg htaken).mono hnone

/-- A session publishes a presence, and then one that is no object. -/
theorem own_presence_shown_on_refusal :
    let record : Record := ⟨"presence:a", "presence", .object [], 1⟩
    let refused : PushResult := ⟨2, 1, [⟨"presence:a", .notAnObject, some record⟩]⟩
    let calls : List Call := [⟨0, .openSocket "a" 0 .null⟩,
      ⟨0, .connect "a" ⟨"a", "presence:a", ⟨1, []⟩, none⟩⟩,
      ⟨0, .push "a" ⟨"a", 1, [], some (.object [])⟩⟩, ⟨0, .push "a" ⟨"a", 2, [], some .null⟩⟩,
      ⟨100, .tick⟩]
    let l : LiveRoom (Journal Unit) := run ⟨.new .notes, .start ()⟩ calls
    let taken : List ServerMessage := [.connected ⟨0, 1, false, .full []⟩,
      .data [.pushResult ⟨1, 1, []⟩], .data [.pushResult refused]]
    let inputs : List Draft.Input := [.presence, .presence] ++ taken.map .receive
    (l.room.session? "a").bind Session.presenceId = some "presence:a" ∧ l.host.taken 0 = taken ∧
      ((Draft.start "a").takeAll inputs).replica.get? "presence:a" = some record := by
  decide +kernel

end LiveRoom

end RoomSync
