import RoomSync.Proofs.Client
import RoomSync.Proofs.Draft.Based
import RoomSync.Proofs.Room.Progress

namespace RoomSync

open Table Room

/-- A message that a session with the given key may send once it is connected. -/
def ClientMessage.Follows (key : String) : ClientMessage → Prop
  | .connect _ => False
  | .push p => p.sessionKey = key
  | .ping => True

/-- A handshake of the client with the given names, for a copy that has reached the clock that it
tells. -/
structure Requests (own : RecordId) (key : String) (d : Draft) (request : ConnectRequest) : Prop where
  sessionKey : request.sessionKey = key
  presenceId : request.presenceId = own
  reaches : d.Reaches request.lastKnownClock

/-- An answer to a handshake that brings copies to a moment, whichever moment of the past they show,
as long as they have reached a clock. -/
structure Offers (own : RecordId) (past : List Moment) (last : Option Nat) (m : Moment)
    (accepted : Accepted) : Prop where
  latest : ∀ m' ∈ past, m'.clock ≤ m.clock
  brings : ∀ d : Draft, d.Known own past → d.Reaches last → Based own m (d.hydrate accepted)

inductive InTouch (own : RecordId) (key : String) (past : List Moment) (now : Moment) (seat : Seat)
    (state : ConnectionState) (d : Draft) (read : Nat) (outgoing : List ClientMessage) : Prop
  /-- The handshake is on its way, and the client was told nothing that matters. -/
  | waiting {request : ConnectRequest} {pings : List ClientMessage} :
      seat.stage = some .waiting → read ≤ seat.taken.length →
      (∀ msg ∈ seat.taken, msg.isNotice = true) → Requests own key d request →
      outgoing = .connect request :: pings → (∀ msg ∈ pings, msg = .ping) → state ≠ .connected →
      InTouch own key past now seat state d read outgoing
  | greeted {notices : List ServerMessage} {accepted : Accepted} {before : List Moment}
      {last : Option Nat} {m : Moment} :
      (∀ msg ∈ notices, msg.isNotice = true) → read ≤ notices.length →
      Supplied own past m (notices ++ [.connected accepted]) [] now seat → m ∈ past →
      Offers own before last m accepted → d.Known own before → d.Reaches last →
      (∀ msg ∈ outgoing, msg = .ping) → state ≠ .connected →
      InTouch own key past now seat state d read outgoing
  /-- The client shows a moment, and what is on its way leads from there to the present. -/
  | live {seen : List ServerMessage} {answered : List Push} {unsent : List PendingPush}
      {m : Moment} :
      seen.length = read → Supplied own past m seen answered now seat → m ∈ past →
      Based own m d → Owes d (answered ++ ClientMessage.pushes outgoing) unsent →
      (state = .connected → unsent = []) → (∀ msg ∈ outgoing, msg.Follows key) →
      InTouch own key past now seat state d read outgoing

theorem ClientMessage.follows_ping {key : String} {msg : ClientMessage} (h : msg = .ping) :
    msg.Follows key := by
  rw [h]
  trivial

theorem ClientMessage.pushes_concat_ping (messages : List ClientMessage) :
    pushes (messages ++ [.ping]) = pushes messages :=
  (pushes_append messages [.ping]).trans (List.append_nil _)

theorem ClientMessage.pushes_pings {messages : List ClientMessage}
    (h : ∀ msg ∈ messages, msg = .ping) : pushes messages = [] :=
  List.filterMap_eq_nil_iff.2 fun msg hm => by rw [h msg hm]

theorem ClientMessage.concat_pings {messages : List ClientMessage}
    (h : ∀ msg ∈ messages, msg = .ping) : ∀ msg ∈ messages ++ [.ping], msg = .ping :=
  fun msg hm => (List.mem_append.1 hm).elim (h msg) List.mem_singleton.1

/-- What a client has said since its session was connected: its unsettled pushes, of which none is
left unsent while it counts as connected. -/
structure Speaks (key : String) (state : ConnectionState) (d : Draft) (made : List Push)
    (outgoing : List ClientMessage) (unsent : List PendingPush) : Prop where
  owes : Owes d (made ++ ClientMessage.pushes outgoing) unsent
  sent : state = .connected → unsent = []
  follows : ∀ msg ∈ outgoing, msg.Follows key

namespace Speaks

variable {key : String} {state state' : ConnectionState} {d : Draft} {made : List Push}
  {outgoing : List ClientMessage} {unsent : List PendingPush}

theorem idle (h : Speaks key state d made outgoing unsent) (hs : state' ≠ .connected) :
    Speaks key state' d made outgoing unsent := ⟨h.owes, fun he => absurd he hs, h.follows⟩

theorem follows_concat (h : Speaks key state d made outgoing unsent) {msg : ClientMessage}
    (hmsg : msg.Follows key) : ∀ m ∈ outgoing ++ [msg], m.Follows key := by
  intro m hm
  obtain hm | hm := List.mem_append.1 hm
  · exact h.follows m hm
  · rw [List.mem_singleton.1 hm]
    exact hmsg

theorem ping (h : Speaks key state d made outgoing unsent) :
    Speaks key state d made (outgoing ++ [.ping]) unsent := by
  refine ⟨?_, h.sent, h.follows_concat trivial⟩
  rw [ClientMessage.pushes_concat_ping]
  exact h.owes

theorem unping (h : Speaks key state d made (.ping :: outgoing) unsent) :
    Speaks key state d made outgoing unsent :=
  ⟨h.owes, h.sent, fun msg hm => h.follows msg (.tail _ hm)⟩

theorem push (h : Speaks key state d made outgoing unsent) (hkey : d.sessionKey = key)
    (mutations : List Mutation) :
    ∃ unsent', Speaks key state (d.push mutations).1 made
      (if state = .connected then outgoing ++ [d.pushMessage (d.push mutations).2] else outgoing)
      unsent' := by
  have howes := h.owes.push mutations
  by_cases hstate : state = .connected
  · obtain rfl := h.sent hstate
    rw [if_pos hstate]
    refine ⟨[], ?_, fun _ => rfl, h.follows_concat hkey⟩
    rw [ClientMessage.pushes_append, ← List.append_assoc]
    exact howes.sent
  · rw [if_neg hstate]
    exact ⟨_, howes, fun he => absurd he hstate, h.follows⟩

theorem publish (h : Speaks key state d made outgoing unsent) (hkey : d.sessionKey = key)
    (content : Content) :
    Speaks key state d.allot.1 made
      (outgoing ++ [.push ⟨d.sessionKey, d.allot.2, [], some content⟩]) unsent := by
  refine ⟨?_, h.sent, h.follows_concat hkey⟩
  rw [ClientMessage.pushes_append, ← List.append_assoc]
  exact h.owes.publish content

theorem hydrate (hkey : d.sessionKey = key) (hnumbered : d.Numbered) (accepted : Accepted)
    (hpings : ∀ msg ∈ outgoing, msg = .ping) :
    Speaks key state (d.hydrate accepted) [] (outgoing ++ d.pending.map d.pushMessage) [] := by
  have hkeeps : d.Keeps (d.hydrate accepted) := d.keeps_fold (.connected accepted)
  have howes : Owes (d.hydrate accepted) [] d.pending := ⟨hkeeps.numbered hnumbered, rfl, nofun⟩
  have hpushes : ClientMessage.pushes (outgoing ++ d.pending.map d.pushMessage) =
      d.pending.map fun p => ⟨d.sessionKey, p.pushId, p.mutations, none⟩ := by
    rw [ClientMessage.pushes_append, ClientMessage.pushes_pings hpings, List.nil_append,
      ClientMessage.pushes_pending]
  refine ⟨?_, fun _ => rfl, fun msg hmsg => ?_⟩
  · rw [hpushes, ← hkeeps.sessionKey]
    exact howes.sent
  · obtain hmsg | hmsg := List.mem_append.1 hmsg
    · exact ClientMessage.follows_ping (hpings msg hmsg)
    · obtain ⟨p, -, rfl⟩ := List.mem_map.1 hmsg
      exact hkey

theorem heard {p : Push} (h : Speaks key state d made (.push p :: outgoing) unsent) :
    Speaks key state d (made ++ [p]) outgoing unsent := by
  refine ⟨?_, h.sent, fun msg hm => h.follows msg (.tail _ hm)⟩
  rw [List.append_assoc]
  exact h.owes

end Speaks

/-- What a client shows after a message, in view of what it showed before. -/
structure Advances (own : RecordId) (past : List Moment) (d d' : Draft) : Prop where
  known : d.Known own past → d'.Known own past
  reaches : ∀ last, d.Reaches last → d'.Reaches last

theorem Advances.refl (own : RecordId) (past : List Moment) (d : Draft) : Advances own past d d :=
  ⟨id, fun _ => id⟩

theorem advances_of_based {own : RecordId} {past : List Moment} {d d' : Draft} {m : Moment} (hkeeps : d.Keeps d') (hm : m ∈ past)
    (hbased : Based own m d') (hle : d.synced = true → d.replica.clock ≤ m.clock) :
    Advances own past d d' := by
  refine ⟨fun _ _ => ⟨m, hm, hbased⟩, fun last hreaches since hs => ?_⟩
  obtain ⟨hsynced, hsince⟩ := hreaches since hs
  refine ⟨hkeeps.synced hsynced, Nat.le_trans hsince ?_⟩
  rw [hbased.clock]
  exact hle hsynced

theorem Room.Chronicle.offers {r : Room} {past : List Moment} (hc : r.Chronicle past)
    {accepted : Accepted} {resumed : Bool} {last : Option Nat} {own : RecordId}
    (hclock : accepted.clock = r.clock)
    (hhydration : accepted.hydration = r.hydration resumed last own) :
    Offers own past last r.moment accepted :=
  ⟨fun m hm => (hc.recalls m hm).le, fun _ => Based.hydrate hc hclock hhydration⟩

namespace InTouch

variable {own : RecordId} {key : String} {past past' : List Moment} {now : Moment} {seat : Seat}
  {state state' : ConnectionState} {d : Draft} {read : Nat} {outgoing : List ClientMessage}

theorem idle (h : InTouch own key past now seat state d read outgoing) (hs : state' ≠ .connected) :
    InTouch own key past now seat state' d read outgoing := by
  cases h with
  | waiting hstage hread hnotices hrequest hout hpings _ =>
    exact .waiting hstage hread hnotices hrequest hout hpings hs
  | greeted hnotices hread hsupplied hm hoffers hknown hreaches hpings _ =>
    exact .greeted hnotices hread hsupplied hm hoffers hknown hreaches hpings hs
  | live hread hsupplied hm hbased howes hsent hfollows =>
    have hspeaks : Speaks key state' d _ outgoing _ := Speaks.idle ⟨howes, hsent, hfollows⟩ hs
    exact .live hread hsupplied hm hbased hspeaks.owes hspeaks.sent hspeaks.follows

theorem ping (h : InTouch own key past now seat state d read outgoing) :
    InTouch own key past now seat state d read (outgoing ++ [.ping]) := by
  cases h with
  | waiting hstage hread hnotices hrequest hout hpings hs =>
    exact .waiting hstage hread hnotices hrequest (by rw [hout]; rfl)
      (ClientMessage.concat_pings hpings) hs
  | greeted hnotices hread hsupplied hm hoffers hknown hreaches hpings hs =>
    exact .greeted hnotices hread hsupplied hm hoffers hknown hreaches
      (ClientMessage.concat_pings hpings) hs
  | live hread hsupplied hm hbased howes hs hfollows =>
    have hspeaks := Speaks.ping ⟨howes, hs, hfollows⟩
    exact .live hread hsupplied hm hbased hspeaks.owes hspeaks.sent hspeaks.follows

theorem push (h : InTouch own key past now seat state d read outgoing) (hkey : d.sessionKey = key)
    (mutations : List Mutation) :
    InTouch own key past now seat state (d.push mutations).1 read
      (if state = .connected then outgoing ++ [d.pushMessage (d.push mutations).2] else outgoing) := by
  cases h with
  | waiting hstage hread hnotices hrequest hout hpings hs =>
    rw [if_neg hs]
    exact .waiting hstage hread hnotices
      ⟨hrequest.sessionKey, hrequest.presenceId, hrequest.reaches.push mutations⟩ hout hpings hs
  | greeted hnotices hread hsupplied hm hoffers hknown hreaches hpings hs =>
    rw [if_neg hs]
    exact .greeted hnotices hread hsupplied hm hoffers (hknown.push mutations)
      (hreaches.push mutations) hpings hs
  | live hread hsupplied hm hbased howes hs hfollows =>
    obtain ⟨_, hspeaks⟩ := Speaks.push ⟨howes, hs, hfollows⟩ hkey mutations
    exact .live hread hsupplied hm (hbased.push mutations) hspeaks.owes hspeaks.sent hspeaks.follows

theorem publish (h : InTouch own key past now seat state d read outgoing) (hkey : d.sessionKey = key)
    (content : Content) :
    InTouch own key past now seat state (if state = .connected then d.allot.1 else d) read
      (if state = .connected then
        outgoing ++ [.push ⟨d.sessionKey, d.allot.2, [], some content⟩] else outgoing) := by
  by_cases hstate : state = .connected
  · rw [if_pos hstate, if_pos hstate]
    cases h with
    | waiting _ _ _ _ _ _ hs => exact absurd hstate hs
    | greeted _ _ _ _ _ _ _ _ hs => exact absurd hstate hs
    | live hread hsupplied hm hbased howes hs hfollows =>
      have hspeaks := Speaks.publish ⟨howes, hs, hfollows⟩ hkey content
      exact .live hread hsupplied hm ⟨hbased.clock, hbased.unsettled, hbased.settled⟩ hspeaks.owes
        hspeaks.sent hspeaks.follows
  · rw [if_neg hstate, if_neg hstate]
    exact h

theorem passes {σ : Type} {l l' : LiveRoom (Journal σ)} {socket : SocketId}
    (h : InTouch own key past l.room.moment (l.seat key socket) state d read outgoing)
    (hsub : past ⊆ past') (hp : LiveRoom.Passes past' l l' key socket)
    (hopen : (l'.seat key socket).closed = false) :
    InTouch own key past' l'.room.moment (l'.seat key socket) state d read outgoing := by
  cases h with
  | waiting hstage hread hnotices hrequest hout hpings hs =>
    obtain ⟨_, ht⟩ := hp.takes
    obtain ⟨notices, hy, hn⟩ := ht.of_waiting hstage hopen
    rw [hy]
    refine .waiting hstage ?_ (fun msg hm => ?_) hrequest hout hpings hs
    · rw [List.length_append]
      exact Nat.le_add_right_of_le hread
    · exact (List.mem_append.1 hm).elim (hnotices msg) (hn msg)
  | greeted hnotices hread hsupplied hm hoffers hknown hreaches hpings hs =>
    exact .greeted hnotices hread (hp.supplied _ _ _ _ _ (fun _ h => h) (hsupplied.mono hsub))
      (hsub hm) hoffers hknown hreaches hpings hs
  | live hread hsupplied hm hbased howes hs hfollows =>
    exact .live hread (hp.supplied _ _ _ _ _ (fun _ h => h) (hsupplied.mono hsub)) (hsub hm)
      hbased howes hs hfollows

theorem fold_notice (d : Draft) {msg : ServerMessage} (h : msg.isNotice = true) :
    (d.fold msg).draft = d ∧ (d.fold msg).replies = [] := by
  cases msg with
  | connected _ | data _ => cases h
  | _ => exact ⟨rfl, rfl⟩

theorem fold_later (d : Draft) {msg : ServerMessage} (h : msg.isLater = true) :
    (d.fold msg).draft = (d.foldBatch msg.contents).1 ∧ (d.fold msg).replies = [] := by
  cases msg with
  | connected _ => cases h
  | _ => exact ⟨rfl, rfl⟩

/-- The answer to a handshake brings the client to the moment at which the room gave it, and makes
the client send whatever is unsettled. -/
theorem hydrates {notices : List ServerMessage} {accepted : Accepted} {before : List Moment}
    {last : Option Nat} {m : Moment} (hkey : d.sessionKey = key) (hnumbered : d.Numbered)
    (hsupplied : Supplied own past m (notices ++ [.connected accepted]) [] now seat) (hm : m ∈ past)
    (hoffers : Offers own before last m accepted) (hknown : d.Known own before)
    (hreaches : d.Reaches last) (hpings : ∀ msg ∈ outgoing, msg = .ping) :
    InTouch own key past now seat state' (d.hydrate accepted) (notices.length + 1)
        (outgoing ++ d.pending.map d.pushMessage) ∧
      Advances own past d (d.hydrate accepted) := by
  have hbased := hoffers.brings d hknown hreaches
  have hspeaks : Speaks key state' _ [] _ [] := .hydrate hkey hnumbered accepted hpings
  refine ⟨.live List.length_append hsupplied hm hbased hspeaks.owes hspeaks.sent hspeaks.follows,
    advances_of_based (d.keeps_fold (.connected accepted)) hm hbased fun hsynced => ?_⟩
  obtain ⟨m', hm', hb⟩ := hknown hsynced
  rw [hb.clock]
  exact hoffers.latest m' hm'

theorem reads (h : InTouch own key past now seat state d read outgoing) (hopen : seat.closed = false)
    (hkey : d.sessionKey = key) (hnumbered : d.Numbered) {msg : ServerMessage}
    (hmsg : seat.taken[read]? = some msg) (hu : ∀ batch, msg = .data batch → d.Untangled batch)
    (hstate : (∀ accepted, msg ≠ .connected accepted) → state' = state) :
    InTouch own key past now seat state' (d.fold msg).draft (read + 1)
        (outgoing ++ (d.fold msg).replies) ∧
      Advances own past d (d.fold msg).draft := by
  have hnotice : msg.isNotice = true → state' = state ∧ (d.fold msg).draft = d ∧
      outgoing ++ (d.fold msg).replies = outgoing := fun hn => by
    obtain ⟨hdraft, hreplies⟩ := fold_notice d hn
    refine ⟨hstate fun accepted he => ?_, hdraft, by rw [hreplies, List.append_nil]⟩
    rw [he] at hn
    cases hn
  obtain ⟨hlt, hget⟩ := List.getElem?_eq_some_iff.1 hmsg
  cases h with
  | waiting hstage hread hnotices hrequest hout hpings hs =>
    obtain ⟨he, hdraft, hreplies⟩ := hnotice (hnotices msg (hget ▸ List.getElem_mem hlt))
    rw [he, hdraft, hreplies]
    exact ⟨.waiting hstage hlt hnotices hrequest hout hpings hs, .refl ..⟩
  | @greeted notices accepted before last m hnotices hread hsupplied hm hoffers hknown hreaches
      hpings hs =>
    obtain ⟨later, htaken⟩ := hsupplied.taken
    rw [htaken, List.append_assoc] at hmsg
    by_cases hunread : read < notices.length
    · rw [List.getElem?_append_left hunread] at hmsg
      obtain ⟨he, hdraft, hreplies⟩ := hnotice (hnotices msg (List.mem_of_getElem? hmsg))
      rw [he, hdraft, hreplies]
      exact ⟨.greeted hnotices hunread hsupplied hm hoffers hknown hreaches hpings hs, .refl ..⟩
    · obtain rfl : read = notices.length := Nat.le_antisymm hread (Nat.le_of_not_lt hunread)
      rw [List.getElem?_append_right (Nat.le_refl _), Nat.sub_self] at hmsg
      obtain rfl := Option.some.inj hmsg
      exact hydrates hkey hnumbered hsupplied hm hoffers hknown hreaches hpings
  | @live seen answered unsent m hread hsupplied hm hbased howes hs hfollows =>
    obtain rfl := hread
    obtain ⟨hlater, m', first, second, rfl, htrail, hsupplied⟩ := hsupplied.next hopen hmsg
    obtain ⟨hdraft, hreplies⟩ := fold_later d hlater
    obtain rfl : state' = state := hstate fun accepted he => by
      rw [he] at hlater
      cases hlater
    have huntangled : d.Untangled msg.contents := by
      cases msg with
      | data batch => exact hu batch rfl
      | _ => trivial
    rw [List.append_assoc] at howes
    obtain ⟨hbased', howes'⟩ := Based.batch htrail hbased howes huntangled
    rw [← hdraft] at hbased' howes'
    have hm' := htrail.mem_past hm
    rw [hreplies, List.append_nil]
    refine ⟨.live List.length_append hsupplied hm' hbased' howes' hs hfollows,
      advances_of_based (d.keeps_fold msg) hm' hbased' fun _ => ?_⟩
    rw [hbased.clock]
    exact htrail.clock_le

theorem unping (h : InTouch own key past now seat state d read (.ping :: outgoing)) :
    InTouch own key past now seat state d read outgoing := by
  cases h with
  | waiting _ _ _ _ hout _ _ => cases hout
  | greeted hnotices hread hsupplied hm hoffers hknown hreaches hpings hs =>
    exact .greeted hnotices hread hsupplied hm hoffers hknown hreaches
      (fun msg hm => hpings msg (List.mem_cons_of_mem _ hm)) hs
  | live hread hsupplied hm hbased howes hs hfollows =>
    have hspeaks := Speaks.unping ⟨howes, hs, hfollows⟩
    exact .live hread hsupplied hm hbased hspeaks.owes hspeaks.sent hspeaks.follows

theorem based_of_read (h : InTouch own key past now seat state d read outgoing)
    (hread : read = seat.taken.length) {own' : Option RecordId} {o : Outbox}
    (hstage : seat.stage = some (.connected own' o)) (hheld : o.held = []) : Based own now d := by
  cases h with
  | waiting hw _ _ _ _ _ _ => cases hw.symm.trans hstage
  | @greeted notices accepted _ _ _ _ hunread hsupplied _ _ _ _ _ _ =>
    obtain ⟨later, htaken⟩ := hsupplied.taken
    have hlength := congrArg List.length htaken
    rw [List.length_append, List.length_append, List.length_singleton] at hlength
    omega
  | @live seen answered unsent m hseen hsupplied _ hbased _ _ _ =>
    cases hsupplied with
    | lost hlost _ _ _ _ _ => cases hlost.symm.trans hstage
    | @connected later o' hconnected htaken _ htrail =>
      obtain ⟨-, rfl⟩ := Stage.connected.inj (Option.some.inj (hconnected.symm.trans hstage))
      obtain rfl : later = [] := by
        have hlength := congrArg List.length htaken
        rw [List.length_append] at hlength
        exact List.length_eq_zero_iff.1 (by omega)
      rw [hheld] at htrail
      cases htrail
      exact hbased

end InTouch

structure Linked {σ : Type} (own : RecordId) (key : String) (past : List Moment)
    (l : LiveRoom (Journal σ)) (socket : SocketId) (state : ConnectionState) (d : Draft)
    (read : Nat) (outgoing : List ClientMessage) : Prop where
  attended : LiveRoom.Attended past l key socket
  open_of_stage : (l.seat key socket).stage ≠ none → (l.seat key socket).closed = false
  inTouch : (l.seat key socket).closed = false →
    InTouch own key past l.room.moment (l.seat key socket) state d read outgoing

namespace Linked

variable {σ : Type} {own : RecordId} {key : String} {past past' : List Moment}
  {l l' : LiveRoom (Journal σ)} {socket : SocketId} {state : ConnectionState} {d : Draft}
  {read : Nat} {outgoing : List ClientMessage}

theorem imp (h : Linked own key past l socket state d read outgoing) {state' : ConnectionState}
    {d' : Draft} {read' : Nat} {outgoing' : List ClientMessage}
    (hin : (l.seat key socket).closed = false →
      InTouch own key past l.room.moment (l.seat key socket) state d read outgoing →
      InTouch own key past l.room.moment (l.seat key socket) state' d' read' outgoing') :
    Linked own key past l socket state' d' read' outgoing' :=
  ⟨h.attended, h.open_of_stage, fun hopen => hin hopen (h.inTouch hopen)⟩

theorem passes (h : Linked own key past l socket state d read outgoing) (hsub : past ⊆ past')
    (hp : LiveRoom.Passes past' l l' key socket) :
    Linked own key past' l' socket state d read outgoing := by
  obtain ⟨_, ht⟩ := hp.takes
  exact ⟨hp.attended, ht.open_of_stage h.open_of_stage, fun hopen =>
    (h.inTouch (ht.was_open hopen)).passes hsub hp hopen⟩

variable [Host σ]

theorem heard {msg : ClientMessage}
    (h : Linked own key past l socket state d read (msg :: outgoing))
    (hopen : (l.seat key socket).closed = false) (hknown : d.Known own past) (now : Nat)
    (hl' : l.heed key msg now = l') :
    Linked own key (past ++ [l'.room.moment]) l' socket state d read outgoing := by
  have hsub : past ⊆ past ++ [l'.room.moment] := List.subset_append_left ..
  have hnow : l'.room.moment ∈ past ++ [l'.room.moment] :=
    List.mem_append_right _ List.mem_cons_self
  have hping : msg = .ping →
      Linked own key (past ++ [l'.room.moment]) l' socket state d read outgoing := by
    rintro rfl
    have hp := (l.brief_heed now key .ping).proceeds h.attended.chronicle
    rw [hl'] at hp
    have h' := h.passes hsub (hp.passes key socket h.attended id)
    exact ⟨h'.attended, h'.open_of_stage, fun hopen => (h'.inTouch hopen).unping⟩
  cases h.inTouch hopen with
  | @waiting request _ hstage hread hnotices hrequest hout hpings hs =>
    obtain ⟨rfl, rfl⟩ := List.cons.inj hout
    obtain ⟨hatt, ⟨hgone, hclosed⟩ | ⟨accepted, resumed, hseat, hclock, hhydration⟩⟩ :=
      h.attended.heeds_connect hstage hrequest.sessionKey now hl'
    · exact ⟨hatt, fun hne => absurd hgone hne, fun hopen => nomatch hopen.symm.trans hclosed⟩
    · rw [hrequest.presenceId] at hseat hhydration
      have hoffers := hatt.chronicle.offers hclock hhydration
      refine ⟨hatt, fun _ => by rw [hseat]; exact hopen, fun _ => ?_⟩
      refine .greeted hnotices hread ?_ hnow hoffers (hknown.mono hsub) hrequest.reaches hpings hs
      rw [hseat]
      exact .connected rfl (List.append_nil _).symm (by simp) (.nil _)
  | greeted _ _ _ _ _ _ _ hpings _ => exact hping (hpings msg List.mem_cons_self)
  | @live seen answered unsent m hread hsupplied hm hbased howes hs hfollows =>
    cases msg with
    | connect request => exact (hfollows _ List.mem_cons_self).elim
    | ping => exact hping rfl
    | push p =>
      cases hsupplied with
      | lost _ hclosed _ _ _ _ => cases hopen.symm.trans hclosed
      | @connected later o hstage htaken hlater htrail =>
        obtain ⟨hatt, ⟨_, ht⟩, hanswers⟩ :=
          h.attended.heeds_push hstage (hfollows _ List.mem_cons_self) now hl'
        refine ⟨hatt, ht.open_of_stage h.open_of_stage, fun _ => ?_⟩
        have hspeaks := Speaks.heard ⟨howes, hs, hfollows⟩
        exact .live hread (hanswers m seen answered (.connected hstage htaken hlater htrail))
          (hsub hm) hbased hspeaks.owes hspeaks.sent hspeaks.follows

end Linked

end RoomSync
