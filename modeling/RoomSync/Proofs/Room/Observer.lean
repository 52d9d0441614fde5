import RoomSync.Proofs.Room.Own

namespace RoomSync

open Table Room

/-- Make patches one after the other. There is no result if one of them cannot be made, or was made
already, and none if there is anything but patches. -/
def Replica.follow (r : Replica) : List DataMessage → Option Replica
  | [] => some r
  | .patch patch :: rest =>
    match r.applyPatch patch with
    | .ok (true, next) => next.follow rest
    | _ => none
  | .pushResult _ :: _ => none

def Moment.replica (m : Moment) (own : RecordId) : Replica := ⟨m.clock, m.view own⟩

theorem Trail.follow {own : RecordId} {past : List Moment} {m m' : Moment} {msgs : List DataMessage}
    (h : Trail own past m msgs [] m') : (m.replica own).follow msgs = some (m'.replica own) := by
  generalize hanswered : ([] : List Push) = answered at h
  induction h with
  | nil m => rfl
  | result _ _ _ _ _ _ => cases hanswered
  | @patch m m₁ _ patch _ _ hp _ _ ih =>
    have hmade : (m.replica own).applyPatch patch = .ok (true, m₁.replica own) := by
      have hto : ¬patch.toClock ≤ m.clock := Nat.not_le.2 (hp.toClock ▸ hp.later)
      have hfrom : ¬patch.fromClock > m.clock := hp.fromClock ▸ Nat.lt_irrefl _
      rw [Moment.replica, Moment.replica, hp.view, ← hp.toClock, Replica.applyPatch, if_neg hto,
        if_neg hfrom]
    rw [Replica.follow, hmade]
    exact ih hanswered

namespace LiveRoom

variable {σ : Type} [Host σ] {l l' : LiveRoom (Journal σ)} {key : String} {socket : SocketId}
  {now : Nat} {past : List Moment}

def Deed.opened? : Deed → Option SocketId
  | .opens _ socket => some socket
  | _ => none

def opened (calls : List Call) : List SocketId :=
  calls.filterMap fun call => call.operation.deed.opened?

theorem opened_cons (call : Call) (rest : List Call) :
    opened (call :: rest) = call.operation.deed.opened?.toList ++ opened rest := by
  rw [opened, List.filterMap_cons]
  cases call.operation.deed.opened? <;> rfl

theorem opened_append (calls calls' : List Call) :
    opened (calls ++ calls') = opened calls ++ opened calls' := List.filterMap_append

/-- The sockets of sessions are among the given ones, and no two sessions have the same one. -/
structure Plugged (r : Room) (sockets : List SocketId) : Prop where
  opened : ∀ k s t, r.session? k = some s → s.socket? = some t → t ∈ sockets
  distinct : ∀ k k' s s' t, r.session? k = some s → r.session? k' = some s' →
    s.socket? = some t → s'.socket? = some t → k = k'

theorem Plugged.more {r : Room} {sockets : List SocketId} (h : Plugged r sockets)
    (more : List SocketId) : Plugged r (sockets ++ more) :=
  ⟨fun k s t hs ht => List.mem_append_left _ (h.opened k s t hs ht), h.distinct⟩

section
variable {σ : Type} [Host σ] {l l' : LiveRoom σ} {now : Nat} {sockets : List SocketId}

theorem Turn.plugged {deed : Deed} (ht : Turn now deed l l') (h : Plugged l.room sockets)
    (hfresh : ∀ t, deed.opened? = some t → t ∉ sockets) :
    Plugged l'.room (sockets ++ deed.opened?.toList) := by
  by_cases hopen : ∃ k t, deed = .opens k t
  · obtain ⟨k, t, rfl⟩ := hopen
    have hnew := hfresh t rfl
    have hold : ∀ k' s u, l'.room.session? k' = some s → s.socket? = some u →
        (k' = k ∧ u = t) ∨ (l.room.session? k' = some s ∧ u ≠ t) := by
      intro k' s u hs hu
      cases ht with
      | opens _ _ _ info =>
        refine (sockets_succeed k t info now hs hu).imp id fun ⟨_, hs⟩ => ⟨hs, fun he => hnew ?_⟩
        exact he ▸ h.opened k' s u hs hu
    refine ⟨fun k' s u hs hu => ?_, fun k₁ k₂ s₁ s₂ u hs₁ hs₂ hu₁ hu₂ => ?_⟩
    · obtain ⟨-, rfl⟩ | ⟨hs, -⟩ := hold k' s u hs hu
      · exact List.mem_append_right _ List.mem_cons_self
      · exact List.mem_append_left _ (h.opened k' s u hs hu)
    · obtain ⟨rfl, rfl⟩ | ⟨hs₁, hne⟩ := hold k₁ s₁ u hs₁ hu₁ <;>
        obtain ⟨rfl, he⟩ | ⟨hs₂, hne'⟩ := hold k₂ s₂ _ hs₂ hu₂
      · rfl
      · exact absurd rfl hne'
      · exact absurd he hne
      · exact h.distinct k₁ k₂ s₁ s₂ u hs₁ hs₂ hu₁ hu₂
  · have hi := ht.sockets fun k t he => hopen ⟨k, t, he⟩
    refine ⟨fun k' s' u hs' hu => ?_, fun k₁ k₂ s₁ s₂ u hs₁ hs₂ hu₁ hu₂ => ?_⟩
    · obtain ⟨s, hs, hu⟩ := hi k' s' u hs' hu
      exact List.mem_append_left _ (h.opened k' s u hs hu)
    · obtain ⟨t₁, ht₁, hu₁⟩ := hi k₁ s₁ u hs₁ hu₁
      obtain ⟨t₂, ht₂, hu₂⟩ := hi k₂ s₂ u hs₂ hu₂
      exact h.distinct k₁ k₂ t₁ t₂ u ht₁ ht₂ hu₁ hu₂

theorem run_keeps_fresh {P : List SocketId → LiveRoom σ → Prop}
    (hmore : ∀ {sockets} {l : LiveRoom σ} (more), P sockets l → P (sockets ++ more) l)
    (hturn : ∀ {now deed sockets} {l l' : LiveRoom σ}, Turn now deed l l' → P sockets l →
      (∀ t, deed.opened? = some t → t ∉ sockets) → P (sockets ++ deed.opened?.toList) l')
    (h : P sockets l) {calls : List Call} (hnodup : (sockets ++ opened calls).Nodup) :
    P (sockets ++ opened calls) (l.run calls) := by
  have hturns : ∀ {now ms sockets} {l l' : LiveRoom σ}, Turns now ms l l' → P sockets l →
      P sockets l' := by
    intro now ms sockets l l' hms
    induction hms with
    | refl l => exact id
    | step ht _ ih =>
      intro h
      have h : P (sockets ++ []) _ := hturn ht h nofun
      rw [List.append_nil] at h
      exact ih h
  induction calls generalizing l sockets with
  | nil => exact (List.append_nil sockets).symm ▸ h
  | cons call rest ih =>
    obtain ⟨_, he, -⟩ := l.episode_perform call
    rw [opened_cons, ← List.append_assoc] at hnodup ⊢
    refine ih ?_ hnodup
    cases he with
    | undone hms => exact hmore _ (hturns hms h)
    | done hms hdone =>
      refine hturn hdone (hturns hms h) fun t ht hmem => ?_
      have hdisjoint := (List.nodup_append.1 (List.nodup_append.1 hnodup).1).2.2
      exact hdisjoint t hmem t (by rw [ht]; exact List.mem_cons_self) rfl

theorem plugged_run (h : Plugged l.room sockets) {calls : List Call}
    (hnodup : (sockets ++ opened calls).Nodup) :
    Plugged (l.run calls).room (sockets ++ opened calls) :=
  run_keeps_fresh (P := fun sockets l => Plugged l.room sockets) (fun _ h => h.more _)
    Turn.plugged h hnodup

end

omit [Host σ] in
theorem taken_of_waiting {posted : List DataMessage} {x y : Seat} (ht : Takes posted x y)
    (hw : x.stage = some .waiting) :
    ∃ msgs, y.taken = x.taken ++ msgs ∧ ∀ msg ∈ msgs, msg.isLater = true := by
  cases ht with
  | vacant hv _ => cases hv.symm.trans hw
  | waiting notices _ hy hn =>
    exact ⟨notices, by rw [hy], fun msg hm => ServerMessage.isLater_of_isNotice (hn msg hm)⟩
  | connected _ _ _ _ hx _ _ _ _ _ => cases hx.symm.trans hw
  | lost _ msgs _ hy hl _ => exact ⟨msgs, by rw [hy], hl⟩

omit [Host σ] in
theorem not_told {taken taken' : List ServerMessage} {accepted : Accepted}
    (h : taken' = taken ++ [.connected accepted])
    (hlater : ∃ msgs, taken' = taken ++ msgs ∧ ∀ msg ∈ msgs, msg.isLater = true) : False := by
  obtain ⟨msgs, hmsgs, hl⟩ := hlater
  have hmem : ServerMessage.connected accepted ∈ msgs := by
    rw [← List.append_cancel_left (h.symm.trans hmsgs)]
    exact List.mem_cons_self
  cases hl _ hmem

theorem Attended.told {past ms : List Moment} (h : Attended past l key socket)
    (hw : (l.seat key socket).stage = some .waiting) {request : ConnectRequest}
    (he : Episode now (.greets key request) ms l l') {accepted : Accepted}
    (htold : l'.host.taken socket = l.host.taken socket ++ [.connected accepted]) :
    Attended (past ++ ms) l' key socket ∧
      (l'.seat key socket).stage =
        some (.connected (some request.presenceId) (.start l'.room.clock now)) ∧
      accepted.clock = l'.room.clock ∧
      ∃ resumed, accepted.hydration =
        l'.room.hydration resumed request.lastKnownClock request.presenceId := by
  cases he with
  | undone ht =>
    obtain ⟨_, htakes⟩ := (h.turns ht).takes
    exact (not_told htold (taken_of_waiting htakes hw)).elim
  | @done _ l₁ _ ms ht hdone =>
    obtain ⟨_, htakes⟩ := (h.turns ht).takes
    have hatt := (h.turns ht).attended
    by_cases hw₁ : (l₁.seat key socket).stage = some .waiting
    · obtain ⟨notices, hnotices, hlater⟩ := taken_of_waiting htakes hw
      obtain ⟨s, w, hs, hstate, hsocket⟩ := stage_eq_waiting hw₁
      cases hdone with
      | @greets _ _ s' waiting _ hs' hstate' hf =>
        obtain rfl := Option.some.inj (hs.symm.trans hs')
        obtain rfl := SessionState.awaitingConnect.inj (hstate.symm.trans hstate')
        have hnotices : l₁.host.taken socket = l.host.taken socket ++ notices := hnotices
        obtain hseat | hseat := seat_accept hatt.chronicle.sound.placed hatt.alone hsocket request now
        · have htaken : (l₁.accept key s w request now).1.host.taken socket =
              l₁.host.taken socket ++ [.connected (l₁.accept key s w request now).2] :=
            congrArg Seat.taken hseat
          rw [htold, hnotices, List.append_assoc] at htaken
          have heq := List.append_cancel_left htaken
          obtain rfl : notices = [] := by
            cases notices with
            | nil => rfl
            | cons _ _ => simp at heq
          obtain rfl := ServerMessage.connected.inj (List.cons.inj heq).1
          have htold := l₁.accept_told key s w request now
          rw [← List.append_assoc]
          exact ⟨hatt.greets hs hstate hsocket hf now, congrArg Seat.stage hseat, htold.1, _,
            htold.2⟩
        · have htaken : (l₁.accept key s w request now).1.host.taken socket =
              l₁.host.taken socket := congrArg Seat.taken hseat
          exact (not_told htold ⟨notices, htaken.trans hnotices, hlater⟩).elim
    · have hpasses := (h.turns ht).trans (hatt.turn hdone fun hc => hw₁ hc.2)
      obtain ⟨_, htakes⟩ := hpasses.takes
      exact (not_told htold (taken_of_waiting htakes hw)).elim

omit [Host σ] in
theorem attended_of_waiting (hc : l.room.Chronicle past) {sockets : List SocketId}
    (hp : Plugged l.room sockets) (hw : (l.seat key socket).stage = some .waiting) :
    Attended past l key socket ∧ socket ∈ sockets := by
  obtain ⟨s, w, hs, hstate, hsocket⟩ := stage_eq_waiting hw
  have hsocket : s.socket? = some socket := by
    rw [Session.socket?, hstate]
    exact congrArg some hsocket
  refine ⟨⟨hc, fun k s' hs' ht => hp.distinct k key s' s socket hs' hs ht hsocket,
    fun own o ho => ?_⟩, hp.opened key s socket hs hsocket⟩
  cases hw.symm.trans ho

def Silent (key : String) (socket : SocketId) : LiveRoom (Journal σ) → List Call → Prop
  | _, [] => True
  | l, call :: rest =>
    ((l.seat key socket).stage ≠ none → ∀ push, call.operation.deed ≠ .serves key push) ∧
      Silent key socket (l.perform call) rest

theorem Attended.perform (h : Attended past l key socket) {call : Call}
    (hdeed : ¬call.operation.deed.Concerns key socket (l.seat key socket).stage) :
    Passes (past ++ (l.passing call ++ [(l.perform call).room.moment])) l (l.perform call) key
      socket := by
  obtain ⟨ms, he, hmem⟩ := l.episode_perform call
  refine (h.episode he hdeed).congr fun m => ?_
  have hnow := h.chronicle.now
  have hm := hmem m
  simp only [List.mem_append, List.mem_cons] at hm ⊢
  grind

theorem Attended.run {past : List Moment} (h : Attended past l key socket)
    (hwaiting : (l.seat key socket).stage ≠ some .waiting) {calls : List Call}
    (hopened : socket ∉ opened calls) (hsilent : l.Silent key socket calls) :
    Passes (past ++ l.history calls) l (l.run calls) key socket := by
  induction calls generalizing l past with
  | nil =>
    refine h.passes.congr fun m => ?_
    have hnow := h.chronicle.now
    simp only [history, List.mem_append, List.mem_singleton]
    exact ⟨fun hm => hm.elim id fun hm => hm ▸ hnow, .inl⟩
  | cons call rest ih =>
    have hdeed : ¬call.operation.deed.Concerns key socket (l.seat key socket).stage := by
      intro hc
      cases hd : call.operation.deed with
      | inner => rw [hd] at hc; exact hc
      | opens k t =>
        rw [hd] at hc
        refine hopened (List.mem_filterMap.2 ⟨call, List.mem_cons_self, ?_⟩)
        rw [hd, ← show t = socket from hc]
        rfl
      | greets k request => rw [hd] at hc; exact hwaiting hc.2
      | serves k push => rw [hd] at hc; exact hsilent.1 hc.2 push (hc.1 ▸ hd)
    have hp := h.perform hdeed
    obtain ⟨_, ht⟩ := hp.takes
    have hp' := ih hp.attended (fun hw => hwaiting (ht.was_waiting hw)) (fun hm => hopened ?_)
      hsilent.2
    · refine (hp.trans hp').congr fun m => ?_
      have hnow := h.chronicle.now
      have hlast := moment_mem_history (l.perform call) rest
      simp only [history, List.mem_append, List.mem_cons]
      grind
    · obtain ⟨c, hc, ho⟩ := List.mem_filterMap.1 hm
      exact List.mem_filterMap.2 ⟨c, List.mem_cons_of_mem _ hc, ho⟩

theorem mem_history_append {σ : Type} [Host σ] {l : LiveRoom σ} {calls calls' : List Call}
    {m : Moment} :
    m ∈ l.history (calls ++ calls') ↔ m ∈ l.history calls ∨ m ∈ (l.run calls).history calls' := by
  induction calls generalizing l with
  | nil =>
    have hm := moment_mem_history l calls'
    simp only [List.nil_append, history, List.mem_singleton]
    exact ⟨.inr, fun h => h.elim (fun h => h ▸ hm) id⟩
  | cons call rest ih =>
    have hr : l.run (call :: rest) = (l.perform call).run rest := rfl
    simp only [List.cons_append, history, List.mem_cons, List.mem_append, ih, hr]
    grind

end LiveRoom

/-- What a replica that follows a trail holds is what there was to see at its clock. -/
theorem Trail.mirrors {own : RecordId} {r : Room} {past : List Moment} {m m' : Moment}
    {msgs : List DataMessage} (h : Trail own past m msgs [] m') (hc : r.Chronicle past)
    (hm : m ∈ past) :
    ∃ replica, (m.replica own).follow msgs = some replica ∧
      (∃ m₁ ∈ past, m₁.clock = replica.clock) ∧
      ∀ m₁ ∈ past, m₁.clock = replica.clock → replica.records = m₁.view own := by
  have hm' := h.mem_past hm
  refine ⟨m'.replica own, h.follow, ⟨m', hm', rfl⟩, fun m₁ hm₁ hclock => ?_⟩
  rw [hc.unique m₁ hm₁ m' hm' hclock]
  rfl

/-- The data for a session that was answered nothing is the beginning of a trail, which leads to the
present if the session is connected. -/
theorem Supplied.trail {own : RecordId} {past : List Moment} {m m' : Moment}
    {before : List ServerMessage} {seat : Seat} (h : Supplied own past m before [] m' seat) :
    ∃ later, seat.taken = before ++ later ∧
      (∃ rest m₁, Trail own past m (later.flatMap ServerMessage.contents ++ rest) [] m₁) ∧
      ∀ own' o, seat.stage = some (.connected own' o) →
        Trail own past m (later.flatMap ServerMessage.contents ++ o.held) [] m' := by
  cases h with
  | @connected later o hstage htaken _ h =>
    refine ⟨later, htaken, ⟨_, _, h⟩, fun own' o' ho => ?_⟩
    obtain ⟨-, rfl⟩ := Stage.connected.inj (Option.some.inj (hstage.symm.trans ho))
    exact h
  | @lost later rest _ m₁ hstage _ htaken _ hbegins h =>
    obtain rfl := List.prefix_nil.1 hbegins
    exact ⟨later, htaken, ⟨rest, m₁, h⟩, fun _ _ ho => nomatch hstage.symm.trans ho⟩

theorem Founded.plugged {r : Room} (h : Founded r) : LiveRoom.Plugged r [] := by
  refine ⟨fun k s t hs => ?_, fun k _ s _ _ hs => ?_⟩
  · cases (h.session?_eq_none k).symm.trans hs
  · cases (h.session?_eq_none k).symm.trans hs

/-- The replica of a session that starts afresh and only looks on mirrors the room: after any part of
the data that its socket has taken it holds exactly what the session was to see when the room was at
the replica's clock, and with what is held back for the session it holds what there is to see now. -/
theorem observer_mirrors_room {σ : Type} [Host σ] {start : Room} (hstart : Founded start) (host : σ)
    {before after : List LiveRoom.Call} {handshake : LiveRoom.Call}
    {l₁ l₂ l₃ : LiveRoom (Journal σ)}
    (h₁ : LiveRoom.run ⟨start, .start host⟩ before = l₁) (h₂ : l₁.perform handshake = l₂)
    (h₃ : l₂.run after = l₃) {key : String} {socket : SocketId} {request : ConnectRequest}
    {accepted : Accepted}
    (hsockets : (LiveRoom.opened (before ++ handshake :: after)).Nodup)
    (hdeed : handshake.operation.deed = .greets key request)
    (hfresh : request.lastKnownClock = none)
    (hwaiting : (l₁.seat key socket).stage = some .waiting)
    (htold : l₂.host.taken socket = l₁.host.taken socket ++ [.connected accepted])
    (hsilent : l₂.Silent key socket after) :
    ∃ records later, accepted.hydration = .full records ∧
      l₃.host.taken socket = l₂.host.taken socket ++ later ∧
      (∀ seen, seen <+: later.flatMap ServerMessage.contents →
        ∃ replica, (Replica.hydrate accepted.clock records).follow seen = some replica ∧
          (∃ m ∈ LiveRoom.history ⟨start, Journal.start host⟩ (before ++ handshake :: after),
            m.clock = replica.clock) ∧
          ∀ m ∈ LiveRoom.history ⟨start, Journal.start host⟩ (before ++ handshake :: after),
            m.clock = replica.clock → replica.records = m.view request.presenceId) ∧
      ∀ s c, l₃.room.session? key = some s → s.state = .connected c → c.socket = socket →
        (Replica.hydrate accepted.clock records).follow
            (later.flatMap ServerMessage.contents ++ c.outbox.held) =
          some (l₃.room.moment.replica request.presenceId) := by
  let past := LiveRoom.history ⟨start, Journal.start host⟩ (before ++ handshake :: after)
  have hall : (LiveRoom.run ⟨start, Journal.start host⟩ (before ++ handshake :: after)).room.Chronicle
      past := LiveRoom.chronicle_history hstart _ _
  have hbefore := LiveRoom.chronicle_history hstart (Journal.start host) before
  rw [h₁] at hbefore
  -- The socket was opened before the handshake, so it is not opened again.
  rw [LiveRoom.opened, List.filterMap_append] at hsockets
  obtain ⟨hnodup, -, hdisjoint⟩ := List.nodup_append.1 hsockets
  have hplugged : LiveRoom.Plugged l₁.room ([] ++ LiveRoom.opened before) :=
    h₁ ▸ LiveRoom.plugged_run hstart.plugged hnodup
  obtain ⟨hatt₁, hopened⟩ := LiveRoom.attended_of_waiting hbefore hplugged hwaiting
  have hnever : socket ∉ LiveRoom.opened after := fun hmem => by
    obtain ⟨call, hcall, ho⟩ := List.mem_filterMap.1 hmem
    exact hdisjoint socket hopened socket
      (List.mem_filterMap.2 ⟨call, List.mem_cons_of_mem _ hcall, ho⟩) rfl
  obtain ⟨ms, he, hmem⟩ := l₁.episode_perform handshake
  rw [h₂, hdeed] at he
  obtain ⟨hatt₂, hstage, hclock, resumed, hhydration⟩ := hatt₁.told hwaiting he htold
  have hconnected : (l₂.seat key socket).stage ≠ some .waiting := by
    rw [hstage]
    simp
  have hpasses := hatt₂.run hconnected hnever hsilent
  rw [h₃] at hpasses
  have hsub : LiveRoom.history ⟨start, Journal.start host⟩ before ++ ms ++ l₂.history after ⊆ past := by
    intro m hm
    have hlast := LiveRoom.moment_mem_history l₂ after
    have hmem := hmem m
    rw [h₂] at hmem
    refine LiveRoom.mem_history_append.2 ?_
    rw [h₁, LiveRoom.history, h₂]
    simp only [List.mem_append, List.mem_cons] at hm hmem ⊢
    grind
  have hm : l₂.room.moment ∈ past := hsub (List.mem_append_right _ (LiveRoom.moment_mem_history ..))
  have hstarted : Supplied request.presenceId past l₂.room.moment (l₂.host.taken socket) []
      l₂.room.moment (l₂.seat key socket) :=
    .connected hstage (List.append_nil _).symm (by simp) (.nil _)
  obtain ⟨later, htaken, ⟨rest, m₁, htrail⟩, hcurrent⟩ :=
    (hpasses.supplied _ _ _ _ _ hsub hstarted).trail
  rw [hfresh] at hhydration
  have hreplica : Replica.hydrate accepted.clock
      (l₂.room.store.records.values ++ l₂.room.presenceOfOthers request.presenceId) =
      l₂.room.moment.replica request.presenceId := by
    rw [Replica.hydrate, table_full hatt₂.chronicle.sound, hclock]
    rfl
  refine ⟨_, later, hhydration.trans (hydration_none ..), htaken, fun seen hseen => ?_,
    fun s c hs hc hsocket => ?_⟩
  · obtain ⟨unseen, hunseen⟩ := hseen
    rw [← hunseen, List.append_assoc] at htrail
    obtain ⟨m₂, first, second, hnone, hfirst, -⟩ := htrail.cut
    obtain ⟨rfl, rfl⟩ := List.append_eq_nil_iff.1 hnone.symm
    rw [hreplica]
    exact hfirst.mirrors hall hm
  · rw [hreplica]
    refine Trail.follow (hcurrent s.presenceId c.outbox ?_)
    rw [LiveRoom.stage_of_connected hs hc, if_pos hsocket]

/-- The second session pushes twice. The first push reaches the observer at once, and the second one
is held back for it. -/
theorem observer_mirrors_room_behind :
    let note : Edit := .upsert "note" (.object [])
    let request : ConnectRequest := ⟨"a", "presence:a", ⟨1, []⟩, none⟩
    let after : List LiveRoom.Call := [⟨1, .openSocket "b" 1 .null⟩,
      ⟨1, .connect "b" ⟨"b", "presence:b", ⟨1, []⟩, none⟩⟩,
      ⟨1, .push "b" ⟨"b", 1, [⟨"m", note⟩, ⟨"n", note⟩], some (.object [])⟩⟩,
      ⟨1, .push "b" ⟨"b", 2, [⟨"m", .delete⟩], none⟩⟩]
    let l₁ : LiveRoom (Journal Unit) :=
      LiveRoom.run ⟨.new .notes, .start ()⟩ [⟨0, .openSocket "a" 0 .null⟩]
    let l₂ := l₁.perform ⟨0, .connect "a" request⟩
    let l₃ := l₂.run after
    let sent : Patch := ⟨0, 1, Table.ofList [("m", .put ⟨"m", "note", .object [], 1⟩),
      ("n", .put ⟨"n", "note", .object [], 1⟩),
      ("presence:b", .put ⟨"presence:b", "presence", .object [], 1⟩)]⟩
    let held : Patch := ⟨1, 2, Table.ofList [("m", .remove)]⟩
    l₃.host.taken 0 = [.connected ⟨0, 1, false, .full []⟩, .data [.patch sent]] ∧
      (Replica.hydrate 0 []).follow [.patch sent, .patch held] =
        some (l₃.room.moment.replica "presence:a") := by
  intro note request after l₁ l₂ l₃ sent held
  have htaken : l₃.host.taken 0 = [.connected ⟨0, 1, false, .full []⟩, .data [.patch sent]] := by
    decide +kernel
  have htold : l₂.host.taken 0 = [.connected ⟨0, 1, false, .full []⟩] := by decide +kernel
  have hheld : (l₃.room.connected? "a").map (fun c => (c.socket, c.outbox.held)) =
      some (0, [.patch held]) := by decide +kernel
  obtain ⟨c, hc, he⟩ := Option.map_eq_some_iff.1 hheld
  obtain ⟨s, hs, hc⟩ := connected?_eq_some.1 hc
  obtain ⟨hsocket, hheld⟩ := Prod.mk.inj he
  have hwaiting : (l₁.seat "a" 0).stage = some .waiting := by decide +kernel
  have hsilent : l₂.Silent "a" 0 after := by
    refine ⟨fun _ => nofun, fun _ => nofun, fun _ push h => ?_, fun _ push h => ?_, trivial⟩
    · exact absurd (LiveRoom.Deed.serves.inj h).1 (by decide)
    · exact absurd (LiveRoom.Deed.serves.inj h).1 (by decide)
  obtain ⟨records, later, hrecords, hlater, -, hcurrent⟩ := observer_mirrors_room
    (.new Config.notes_keepsPresence) () (rfl : _ = l₁) (rfl : _ = l₂) (rfl : _ = l₃)
    (by decide : (LiveRoom.opened ([⟨0, .openSocket "a" 0 .null⟩] ++
      ⟨0, .connect "a" request⟩ :: after)).Nodup)
    rfl rfl hwaiting htold hsilent
  obtain rfl := Hydration.full.inj hrecords
  rw [htaken, htold] at hlater
  obtain rfl := (List.cons.inj hlater).2
  have hnow := hcurrent s c hs hc hsocket
  rw [hheld] at hnow
  exact ⟨htaken, hnow⟩

end RoomSync
