import RoomSync.Proofs.Draft.Stamps
import RoomSync.Proofs.Gathering.InTouch
import RoomSync.Proofs.Room.InPlace

namespace RoomSync

open Table Room LiveRoom

variable {answers answers' : Push → PushResult → Prop}

/-- Since it had taken some messages, a connected session was sent answers to some pushes, each of
them once and in their order, as far as they are not held back. -/
inductive Repaid (answers : Push → PushResult → Prop) (before : List ServerMessage)
    (made : List Push) (seat : Seat) : Prop
  | intro {own : Option RecordId} {o : Outbox} {later : List ServerMessage} :
      seat.stage = some (.connected own o) → seat.taken = before ++ later →
      (∀ msg ∈ later, msg.isLater = true) →
      List.Forall₂ answers made
        (settlements (later.flatMap ServerMessage.contents ++ o.held)) →
      Repaid answers before made seat

namespace Repaid

variable {before : List ServerMessage} {made more : List Push} {posted : List DataMessage}
  {x y : Seat}

theorem mono (himp : ∀ push result, answers push result → answers' push result)
    (h : Repaid answers before made x) : Repaid answers' before made x := by
  obtain ⟨hstage, htaken, hlater, h⟩ := h
  exact ⟨hstage, htaken, hlater, h.imp himp⟩

theorem taken (h : Repaid answers before made x) : ∃ later, x.taken = before ++ later := by
  obtain ⟨-, htaken, -, -⟩ := h
  exact ⟨_, htaken⟩

theorem takes (h : Repaid answers before made x) (ht : Takes posted x y)
    (hopen : y.closed = false) (hposted : List.Forall₂ answers more (settlements posted)) :
    Repaid answers before (made ++ more) y := by
  obtain @⟨_, o, later, hstage, htaken, hlater, h⟩ := h
  cases ht with
  | vacant hv _ => cases hv.symm.trans hstage
  | waiting _ hw _ _ => cases hw.symm.trans hstage
  | lost _ _ _ hy _ _ =>
    rw [hy] at hopen
    cases hopen
  | connected own' o₁ o₂ msgs hx hy hlater' hm _ _ =>
    obtain ⟨rfl, rfl⟩ := Stage.connected.inj (Option.some.inj (hx.symm.trans hstage))
    have hsettled := settlements_of_merges (hm.append_left (later.flatMap ServerMessage.contents))
    rw [← List.append_assoc, ← List.flatMap_append, ← List.append_assoc, settlements_append _ posted]
      at hsettled
    refine ⟨congrArg Seat.stage hy, by rw [hy, htaken, List.append_assoc], fun msg hmem => ?_, ?_⟩
    · exact (List.mem_append.1 hmem).elim (hlater msg) (hlater' msg)
    · rw [hsettled]
      exact List.rel_append h hposted

theorem next (h : Repaid answers before made x) {msg : ServerMessage}
    (hmsg : x.taken[before.length]? = some msg) :
    msg.isLater = true ∧ ∃ first second, made = first ++ second ∧
      List.Forall₂ answers first (settlements msg.contents) ∧
      Repaid answers (before ++ [msg]) second x := by
  obtain @⟨_, o, later, hstage, htaken, hlater, h⟩ := h
  rw [htaken, List.getElem?_append_right (Nat.le_refl _), Nat.sub_self] at hmsg
  cases later with
  | nil => cases hmsg
  | cons first rest =>
    obtain rfl := Option.some.inj hmsg
    rw [List.flatMap_cons, List.append_assoc, settlements_append] at h
    refine ⟨hlater _ List.mem_cons_self, _, _, (List.take_append_drop _ made).symm,
      List.forall₂_take_append _ _ _ h, hstage, ?_, fun msg hm => hlater msg (.tail _ hm),
      List.forall₂_drop_append _ _ _ h⟩
    rw [htaken, List.append_assoc]
    rfl

end Repaid

/-- How a client stands to its session over an open socket, as far as its pushes are concerned: the
handshake is on its way to the room, or its answer is on the way back, or the results on their way
answer the oldest of the pushes that are not settled. -/
inductive Accord (answers : Push → PushResult → Prop) (key : String) (seat : Seat)
    (state : ConnectionState) (d : Draft) (read : Nat) (outgoing : List ClientMessage) : Prop
  | waiting {request : ConnectRequest} {pings : List ClientMessage} :
      seat.stage = some .waiting → read ≤ seat.taken.length →
      (∀ msg ∈ seat.taken, msg.isNotice = true) → request.sessionKey = key →
      outgoing = .connect request :: pings → (∀ msg ∈ pings, msg = .ping) → state ≠ .connected →
      Accord answers key seat state d read outgoing
  | greeted {notices : List ServerMessage} {accepted : Accepted} :
      (∀ msg ∈ notices, msg.isNotice = true) → read ≤ notices.length →
      Repaid answers (notices ++ [.connected accepted]) [] seat →
      (∀ msg ∈ outgoing, msg = .ping) → state ≠ .connected →
      Accord answers key seat state d read outgoing
  | live {seen : List ServerMessage} {made : List Push} {unsent : List PendingPush} :
      seen.length = read → Repaid answers seen made seat →
      Speaks key state d made outgoing unsent → Accord answers key seat state d read outgoing

namespace Accord

variable {key : String} {seat : Seat} {state state' : ConnectionState} {d : Draft} {read : Nat}
  {outgoing : List ClientMessage}

theorem mono (himp : ∀ push result, answers push result → answers' push result)
    (h : Accord answers key seat state d read outgoing) :
    Accord answers' key seat state d read outgoing := by
  cases h with
  | waiting hstage hread hnotices hkey hout hpings hs =>
    exact .waiting hstage hread hnotices hkey hout hpings hs
  | greeted hnotices hread hrepaid hpings hs =>
    exact .greeted hnotices hread (hrepaid.mono himp) hpings hs
  | live hread hrepaid hspeaks => exact .live hread (hrepaid.mono himp) hspeaks

theorem idle (h : Accord answers key seat state d read outgoing) (hs : state' ≠ .connected) :
    Accord answers key seat state' d read outgoing := by
  cases h with
  | waiting hstage hread hnotices hkey hout hpings _ =>
    exact .waiting hstage hread hnotices hkey hout hpings hs
  | greeted hnotices hread hrepaid hpings _ => exact .greeted hnotices hread hrepaid hpings hs
  | live hread hrepaid hspeaks => exact .live hread hrepaid (hspeaks.idle hs)

theorem ping (h : Accord answers key seat state d read outgoing) :
    Accord answers key seat state d read (outgoing ++ [.ping]) := by
  cases h with
  | waiting hstage hread hnotices hkey hout hpings hs =>
    exact .waiting hstage hread hnotices hkey (by rw [hout]; rfl) (ClientMessage.concat_pings hpings)
      hs
  | greeted hnotices hread hrepaid hpings hs =>
    exact .greeted hnotices hread hrepaid (ClientMessage.concat_pings hpings) hs
  | live hread hrepaid hspeaks => exact .live hread hrepaid hspeaks.ping

theorem push (h : Accord answers key seat state d read outgoing) (hkey : d.sessionKey = key)
    (mutations : List Mutation) :
    Accord answers key seat state (d.push mutations).1 read
      (if state = .connected then outgoing ++ [d.pushMessage (d.push mutations).2] else outgoing) := by
  cases h with
  | waiting hstage hread hnotices hrequest hout hpings hs =>
    rw [if_neg hs]
    exact .waiting hstage hread hnotices hrequest hout hpings hs
  | greeted hnotices hread hrepaid hpings hs =>
    rw [if_neg hs]
    exact .greeted hnotices hread hrepaid hpings hs
  | live hread hrepaid hspeaks =>
    obtain ⟨_, hspeaks⟩ := hspeaks.push hkey mutations
    exact .live hread hrepaid hspeaks

theorem publish (h : Accord answers key seat state d read outgoing) (hkey : d.sessionKey = key)
    (content : Content) :
    Accord answers key seat state (if state = .connected then d.allot.1 else d) read
      (if state = .connected then
        outgoing ++ [.push ⟨d.sessionKey, d.allot.2, [], some content⟩] else outgoing) := by
  by_cases hstate : state = .connected
  · rw [if_pos hstate, if_pos hstate]
    cases h with
    | waiting _ _ _ _ _ _ hs => exact absurd hstate hs
    | greeted _ _ _ _ hs => exact absurd hstate hs
    | live hread hrepaid hspeaks => exact .live hread hrepaid (hspeaks.publish hkey content)
  · rw [if_neg hstate, if_neg hstate]
    exact h

theorem unping (h : Accord answers key seat state d read (.ping :: outgoing)) :
    Accord answers key seat state d read outgoing := by
  cases h with
  | waiting _ _ _ _ hout _ _ => cases hout
  | greeted hnotices hread hrepaid hpings hs =>
    exact .greeted hnotices hread hrepaid (fun msg hm => hpings msg (.tail _ hm)) hs
  | live hread hrepaid hspeaks => exact .live hread hrepaid hspeaks.unping

theorem takes {posted : List DataMessage} {seat' : Seat}
    (h : Accord answers key seat state d read outgoing) (ht : Takes posted seat seat')
    (hposted : settlements posted = []) (hopen : seat'.closed = false) :
    Accord answers key seat' state d read outgoing := by
  have hrepaid : ∀ {before made}, Repaid answers before made seat → Repaid answers before made seat' :=
    fun {_ made} hr => by
      have hnil : List.Forall₂ answers [] (settlements posted) := by
        rw [hposted]
        exact .nil
      have hr := hr.takes ht hopen hnil
      rwa [List.append_nil] at hr
  cases h with
  | greeted hnotices hread hr hpings hs => exact .greeted hnotices hread (hrepaid hr) hpings hs
  | live hread hr hspeaks => exact .live hread (hrepaid hr) hspeaks
  | waiting hstage hread hnotices hrequest hout hpings hs =>
    obtain ⟨notices, hy, hn⟩ := ht.of_waiting hstage hopen
    rw [hy]
    refine .waiting hstage ?_ (fun msg hm => ?_) hrequest hout hpings hs
    · rw [List.length_append]
      exact Nat.le_add_right_of_le hread
    · exact (List.mem_append.1 hm).elim (hnotices msg) (hn msg)

variable {w : Watch}

theorem reads (h : Accord answers key seat state w.draft read outgoing)
    (hanswers : ∀ push result, answers push result → result.Answers push) (hsound : w.Sound)
    (hkey : w.draft.sessionKey = key) {msg : ServerMessage} (hmsg : seat.taken[read]? = some msg)
    (hstate : (∀ accepted, msg ≠ .connected accepted) → state' = state) :
    Accord answers key seat state' (w.draft.fold msg).draft (read + 1)
        (outgoing ++ (w.draft.fold msg).replies) ∧ (w.take (.receive msg)).Sound := by
  have hnotice : msg.isNotice = true → state' = state ∧ (w.draft.fold msg).draft = w.draft ∧
      outgoing ++ (w.draft.fold msg).replies = outgoing ∧ (w.take (.receive msg)).Sound :=
    fun hn => by
      obtain ⟨hdraft, hreplies⟩ := InTouch.fold_notice w.draft hn
      refine ⟨hstate fun accepted he => ?_, hdraft, by rw [hreplies, List.append_nil], ?_⟩
      · rw [he] at hn
        cases hn
      · cases msg with
        | connected _ | data _ => cases hn
        | _ => exact hsound
  obtain ⟨hlt, hget⟩ := List.getElem?_eq_some_iff.1 hmsg
  cases h with
  | waiting hstage hread hnotices hrequest hout hpings hs =>
    obtain ⟨he, hdraft, hreplies, hw⟩ := hnotice (hnotices msg (hget ▸ List.getElem_mem hlt))
    rw [he, hdraft, hreplies]
    exact ⟨.waiting hstage hlt hnotices hrequest hout hpings hs, hw⟩
  | @greeted notices accepted hnotices hread hrepaid hpings hs =>
    obtain ⟨later, htaken⟩ := hrepaid.taken
    rw [htaken, List.append_assoc] at hmsg
    by_cases hunread : read < notices.length
    · rw [List.getElem?_append_left hunread] at hmsg
      obtain ⟨he, hdraft, hreplies, hw⟩ := hnotice (hnotices msg (List.mem_of_getElem? hmsg))
      rw [he, hdraft, hreplies]
      exact ⟨.greeted hnotices hunread hrepaid hpings hs, hw⟩
    · obtain rfl : read = notices.length := Nat.le_antisymm hread (Nat.le_of_not_lt hunread)
      rw [List.getElem?_append_right (Nat.le_refl _), Nat.sub_self] at hmsg
      obtain rfl := Option.some.inj hmsg
      exact ⟨.live List.length_append hrepaid (.hydrate hkey hsound.numbered accepted hpings),
        hsound.hydrate accepted⟩
  | @live seen made unsent hread hrepaid hspeaks =>
    obtain rfl := hread
    obtain ⟨hlater, first, second, rfl, hfirst, hsecond⟩ := hrepaid.next hmsg
    obtain ⟨hdraft, hreplies⟩ := InTouch.fold_later w.draft hlater
    obtain rfl : state' = state := hstate fun accepted he => by
      rw [he] at hlater
      cases hlater
    obtain ⟨howes, hsent, hfollows⟩ := hspeaks
    rw [List.append_assoc] at howes
    obtain ⟨hw, howes⟩ := hsound.batch hanswers hfirst howes
    rw [Watch.draft_foldl_data, ← hdraft] at howes
    rw [hreplies, List.append_nil]
    refine ⟨.live List.length_append hsecond ⟨howes, hsent, hfollows⟩, ?_⟩
    cases msg with
    | connected _ => cases hlater
    | _ => exact hw

theorem settles (h : Accord answers key seat state w.draft read outgoing)
    (hanswers : ∀ push result, answers push result → result.Answers push) (hsound : w.Sound)
    {before after : List DataMessage} {result : PushResult}
    (hmsg : seat.taken[read]? = some (.data (before ++ .pushResult result :: after))) :
    ∃ made pushes unsent, answers made result ∧ (before.foldl Watch.data w).Sound ∧
      Owes (before.foldl Watch.data w).draft (made :: pushes) unsent := by
  obtain ⟨hlt, hget⟩ := List.getElem?_eq_some_iff.1 hmsg
  cases h with
  | waiting hstage hread hnotices hrequest hout hpings hs =>
    cases hnotices _ (hget ▸ List.getElem_mem hlt)
  | @greeted notices accepted hnotices hread hrepaid hpings hs =>
    obtain ⟨later, htaken⟩ := hrepaid.taken
    rw [htaken, List.append_assoc] at hmsg
    by_cases hunread : read < notices.length
    · rw [List.getElem?_append_left hunread] at hmsg
      cases hnotices _ (List.mem_of_getElem? hmsg)
    · obtain rfl : read = notices.length := Nat.le_antisymm hread (Nat.le_of_not_lt hunread)
      rw [List.getElem?_append_right (Nat.le_refl _), Nat.sub_self] at hmsg
      cases Option.some.inj hmsg
  | @live seen made unsent hread hrepaid hspeaks =>
    obtain rfl := hread
    have howes := hspeaks.owes
    obtain ⟨-, first, second, rfl, hfirst, -⟩ := hrepaid.next hmsg
    change List.Forall₂ answers first (settlements (before ++ .pushResult result :: after)) at hfirst
    rw [settlements_append] at hfirst
    have hbefore := List.forall₂_take_append _ _ _ hfirst
    have hafter := List.forall₂_drop_append _ _ _ hfirst
    rw [← List.take_append_drop (settlements before).length first, List.append_assoc,
      List.append_assoc] at howes
    obtain ⟨hw, howes⟩ := hsound.batch hanswers hbefore howes
    generalize first.drop (settlements before).length = others at hafter howes
    cases hafter with
    | cons hresult _ => exact ⟨_, _, _, hresult, hw, howes⟩

end Accord

structure Accorded {σ : Type} (answers : Push → PushResult → Prop) (key : String)
    (l : LiveRoom (Journal σ)) (socket : SocketId) (state : ConnectionState) (d : Draft)
    (read : Nat) (outgoing : List ClientMessage) : Prop where
  inPlace : l.InPlace key socket
  open_of_stage : (l.seat key socket).stage ≠ none → (l.seat key socket).closed = false
  accord : (l.seat key socket).closed = false →
    Accord answers key (l.seat key socket) state d read outgoing

namespace Accorded

variable {σ : Type} {key : String} {l l' : LiveRoom (Journal σ)} {socket : SocketId}
  {state : ConnectionState} {d : Draft} {read : Nat} {outgoing : List ClientMessage}

theorem imp (h : Accorded answers key l socket state d read outgoing) {state' : ConnectionState}
    {d' : Draft} {read' : Nat} {outgoing' : List ClientMessage}
    (haccord : (l.seat key socket).closed = false →
      Accord answers key (l.seat key socket) state d read outgoing →
      Accord answers' key (l.seat key socket) state' d' read' outgoing') :
    Accorded answers' key l socket state' d' read' outgoing' :=
  ⟨h.inPlace, h.open_of_stage, fun hopen => haccord hopen (h.accord hopen)⟩

theorem bypassed (h : Accorded answers key l socket state d read outgoing)
    (hb : Bypasses l l' key socket) : Accorded answers key l' socket state d read outgoing := by
  obtain ⟨posted, hposted, ht⟩ := hb.takes
  exact ⟨hb.inPlace, ht.open_of_stage h.open_of_stage, fun hopen =>
    (h.accord (ht.was_open hopen)).takes ht hposted hopen⟩

variable [Host σ]

theorem heard {msg : ClientMessage} (h : Accorded answers key l socket state d read (msg :: outgoing))
    (hopen : (l.seat key socket).closed = false) (now : Nat) (hl' : l.heed key msg now = l')
    (hanswers : ∀ push result, msg = .push push → (l.receivePush key push now).2 = .ok result →
      answers push result) : Accorded answers key l' socket state d read outgoing := by
  have hping : msg = .ping → Accorded answers key l' socket state d read outgoing := by
    rintro rfl
    obtain ⟨ms, he, -⟩ := l.brief_heed now key .ping
    rw [hl'] at he
    exact (h.bypassed (h.inPlace.episode he id)).imp fun _ haccord => haccord.unping
  cases h.accord hopen with
  | waiting hstage hread hnotices hrequest hout hpings hs =>
    obtain ⟨rfl, rfl⟩ := List.cons.inj hout
    obtain ⟨hin, ⟨hgone, hclosed⟩ | ⟨accepted, resumed, hseat, -, -⟩⟩ :=
      h.inPlace.heeds_connect hstage hrequest now hl'
    · exact ⟨hin, fun hne => absurd hgone hne, fun hopen => nomatch hopen.symm.trans hclosed⟩
    · refine ⟨hin, fun _ => by rw [hseat]; exact hopen, fun _ => ?_⟩
      have hrepaid : Repaid answers ((l.seat key socket).taken ++ [.connected accepted]) []
          (l'.seat key socket) := by
        rw [hseat]
        exact .intro rfl (List.append_nil _).symm nofun .nil
      exact .greeted hnotices hread hrepaid hpings hs
  | greeted _ _ _ hpings _ => exact hping (hpings msg List.mem_cons_self)
  | @live seen made unsent hread hrepaid hspeaks =>
    have hfollows := hspeaks.follows _ List.mem_cons_self
    cases msg with
    | connect request => exact hfollows.elim
    | ping => exact hping rfl
    | push p =>
      obtain ⟨hstage, htaken, hlater, hmade⟩ := hrepaid
      have hr := h.inPlace.heeds_push hstage hfollows now hl'
      refine ⟨hr.inPlace, hr.takes.open_of_stage h.open_of_stage, fun hopen' => ?_⟩
      have hresult := hanswers p _ rfl (congrArg Prod.snd hr.received)
      have hrepaid : Repaid answers seen (made ++ [p]) (l'.seat key socket) :=
        Repaid.takes ⟨hstage, htaken, hlater, hmade⟩ hr.takes hopen' (.cons hresult .nil)
      exact .live hread hrepaid hspeaks.heard

end Accorded

end RoomSync
