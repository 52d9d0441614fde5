import RoomSync.Proofs.Draft.Unseen
import RoomSync.Proofs.Room.Own

namespace RoomSync

open Table Room

/-- What a socket took, and what is held back for it. -/
structure Seat.Veiled (excused : RecordId → PushResult → Prop) (own? : Option RecordId)
    (seat : Seat) : Prop where
  waiting : seat.stage = some .waiting → own? = none
  connected : ∀ id? o, seat.stage = some (.connected id? o) →
    id? = own? ∧ ∃ own, own? = some own ∧ ∀ msg ∈ o.held, msg.Veils excused own
  taken : ∀ msg ∈ seat.taken, msg.Veils excused own?

variable {excused : RecordId → PushResult → Prop} {own : RecordId} {own? : Option RecordId}

theorem ServerMessage.veils_of_isNotice {msg : ServerMessage} (h : msg.isNotice = true) :
    msg.Veils excused own? := by
  cases msg with
  | connected _ | data _ => cases h
  | rejectConnect _ | pong | error _ => trivial

theorem ServerMessage.veils_of_contents {msg : ServerMessage} (hlater : msg.isLater = true)
    (h : ∀ content ∈ msg.contents, ∃ own, own? = some own ∧ content.Veils excused own) :
    msg.Veils excused own? := by
  cases msg with
  | connected _ => cases hlater
  | data batch => exact h
  | rejectConnect _ | pong | error _ => trivial

theorem ServerMessage.veils_of_flatMap {msgs : List ServerMessage}
    (hlater : ∀ msg ∈ msgs, msg.isLater = true)
    (h : ∀ content ∈ msgs.flatMap contents, ∃ own, own? = some own ∧ content.Veils excused own) :
    ∀ msg ∈ msgs, msg.Veils excused own? := fun msg hm =>
  veils_of_contents (hlater msg hm) fun content hc => h content (List.mem_flatMap.2 ⟨msg, hm, hc⟩)

theorem ServerMessage.Veils.mono {excused' : RecordId → PushResult → Prop} {msg : ServerMessage}
    (h : msg.Veils excused (some own))
    (he : ∀ result, .pushResult result ∈ msg.contents → excused own result → excused' own result) :
    msg.Veils excused' (some own) := by
  cases msg with
  | connected accepted => exact h
  | rejectConnect _ | pong | error _ => trivial
  | data batch =>
    intro content hc
    obtain ⟨_, ho, hv⟩ := h content hc
    obtain rfl := Option.some.inj ho
    refine ⟨own, rfl, ?_⟩
    cases content with
    | patch patch => exact hv
    | pushResult result => exact fun hs => he result hc (hv hs)

namespace Seat.Veiled

variable {x y : Seat} {posted : List DataMessage}

theorem lost (h : x.Veiled excused own?) (hy : y = ⟨x.taken, true, none⟩) :
    y.Veiled excused own? := by
  subst hy
  exact ⟨nofun, nofun, h.taken⟩

theorem merges (h : x.Veiled excused own?) {id? : Option RecordId} {o : Outbox}
    (hx : x.stage = some (.connected id? o))
    (hposted : ∀ own, id? = some own → ∀ msg ∈ posted, msg.Veils excused own)
    {msgs : List DataMessage} (hm : Merges (o.held ++ posted) msgs) :
    id? = own? ∧ ∃ own, own? = some own ∧ ∀ msg ∈ msgs, msg.Veils excused own := by
  obtain ⟨rfl, own, rfl, hheld⟩ := h.connected id? o hx
  refine ⟨rfl, own, rfl, hm.all DataMessage.veils_absorb ?_⟩
  exact List.forall_mem_append.2 ⟨hheld, hposted own rfl⟩

theorem takes (h : x.Veiled excused own?) (ht : Takes posted x y)
    (hposted : ∀ own o, x.stage = some (.connected (some own) o) →
      ∀ msg ∈ posted, msg.Veils excused own) : y.Veiled excused own? := by
  cases ht with
  | vacant hx hy => exact hy ▸ h
  | waiting notices hx hy hn =>
    subst hy
    refine ⟨h.waiting, h.connected, List.forall_mem_append.2 ⟨h.taken, fun msg hm => ?_⟩⟩
    exact ServerMessage.veils_of_isNotice (hn msg hm)
  | connected id? o o' msgs hx hy hl hm _ _ =>
    subst hy
    obtain ⟨rfl, own, rfl, hv⟩ := h.merges hx (fun own he => hposted own o (he ▸ hx)) hm
    obtain ⟨hsent, hheld⟩ := List.forall_mem_append.1 hv
    refine ⟨nofun, fun id? o₁ ho => ?_, List.forall_mem_append.2 ⟨h.taken, ?_⟩⟩
    · obtain ⟨rfl, rfl⟩ := Stage.connected.inj (Option.some.inj ho)
      exact ⟨rfl, own, rfl, hheld⟩
    · exact ServerMessage.veils_of_flatMap hl fun content hc => ⟨own, rfl, hsent content hc⟩
  | lost stage msgs hx hy hl hloses =>
    subst hy
    refine ⟨nofun, nofun, List.forall_mem_append.2 ⟨h.taken, ?_⟩⟩
    refine ServerMessage.veils_of_flatMap hl fun content hc => ?_
    cases stage with
    | waiting =>
      have hempty : msgs.flatMap ServerMessage.contents = [] := hloses
      rw [hempty] at hc
      cases hc
    | connected id? o =>
      obtain ⟨rest, hrest⟩ := hloses
      obtain ⟨rfl, own, rfl, hv⟩ := h.merges hx (fun own he => hposted own o (he ▸ hx)) hrest
      exact ⟨own, rfl, (List.forall_mem_append.1 hv).1 content hc⟩

end Seat.Veiled

namespace Room

theorem Placed.not_shows_changesSince {r : Room} (h : r.Placed)
    (hown : r.store.records.get? own = none) (since : Nat) :
    ¬(r.store.changesSince since).Shows own := by
  rintro ⟨record, hr⟩
  rw [Store.changesSince, Changes.get?_foldl_remove] at hr
  split at hr
  · cases hr
  · rw [Changes.get?_foldl_put, get?_empty, Option.or_none] at hr
    obtain ⟨record, hlast, -⟩ := Option.map_eq_some_iff.1 hr
    obtain ⟨record', hmem, he⟩ := List.mem_map.1 (Entries.mem_of_last? hlast)
    obtain ⟨rfl, rfl⟩ := Prod.mk.inj he
    obtain ⟨key, hk⟩ := mem_values.1 (List.mem_filter.1 hmem).1
    rw [h.documents_keyed key record' hk, hk] at hown
    cases hown

theorem Placed.not_shows_hydration {r : Room} (h : r.Placed)
    (hown : r.store.records.get? own = none) (resumed : Bool) (last : Option Nat) :
    ¬(r.hydration resumed last own).Shows own := by
  have hothers : ∀ record ∈ r.presenceOfOthers own, record.id ≠ own := fun record hr => by
    simpa using (List.mem_filter.1 hr).2
  obtain he | ⟨since, -, -, he⟩ := r.hydration_cases resumed last own
  · rw [he]
    rintro ⟨record, hr, rfl⟩
    obtain hr | hr := List.mem_append.1 hr
    · obtain ⟨key, hk⟩ := mem_values.1 hr
      rw [h.documents_keyed key record hk, hk] at hown
      cases hown
    · exact hothers record hr rfl
  · rw [he]
    rintro ⟨record, hr⟩
    rw [Changes.get?_foldl_put] at hr
    cases hlast : Entries.last? own ((r.presenceOfOthers own).map fun r => (r.id, r)) with
    | none =>
      rw [hlast] at hr
      exact h.not_shows_changesSince hown since ⟨record, hr⟩
    | some other =>
      obtain ⟨record', hmem, he⟩ := List.mem_map.1 (Entries.mem_of_last? hlast)
      exact hothers record' hmem (Prod.mk.inj he).1

end Room

namespace LiveRoom

variable {σ : Type} {l l' : LiveRoom (Journal σ)} {key : String} {socket : SocketId} {now : Nat}
  {deed : Deed}

/-- A room in which a socket belongs to no session but one, which is shown nothing of its own. -/
structure Veiled (excused : RecordId → PushResult → Prop) (own? : Option RecordId)
    (l : LiveRoom (Journal σ)) (key : String) (socket : SocketId) : Prop where
  placed : l.room.Placed
  alone : l.room.Alone key socket
  at_clock : (l.seat key socket).At l.room.clock
  seat : (l.seat key socket).Veiled excused own?

theorem Free.veiled (h : l.Free socket) (hp : l.room.Placed) (htaken : l.host.taken socket = [])
    (key : String) : l.Veiled excused none key socket := by
  have hstage := h.stage key
  refine ⟨hp, h.alone key, Seat.at_of_vacant hstage _, fun _ => rfl, fun id? o ho => ?_, ?_⟩
  · cases hstage.symm.trans ho
  · exact fun msg hm => absurd (htaken ▸ hm : msg ∈ []) List.not_mem_nil

theorem Informed.veiled (hi : Informed key socket l l')
    (h : (l.seat key socket).Veiled excused own?) : (l'.seat key socket).Veiled excused own? := by
  cases hi with
  | quiet _ ht => exact h.takes ht nofun
  | gone ht _ => exact h.takes ht nofun
  | moved changes _ hown ht =>
    refine h.takes ht fun own o hstage msg hm => ?_
    obtain rfl := List.mem_singleton.1 hm
    rintro ⟨record, hr⟩
    cases (hown own o hstage).symm.trans hr

namespace Veiled

variable [Host σ] (h : l.Veiled excused own? key socket)
include h

theorem turn (ht : Turn now deed l l')
    (hdeed : ¬deed.Concerns key socket (l.seat key socket).stage) :
    l'.Veiled excused own? key socket := by
  have hi := ht.informed h.placed h.alone h.at_clock hdeed
  refine ⟨ht.placed h.placed, ht.alone (fun k he => hdeed ?_) h.alone, hi.at_clock h.at_clock,
    hi.veiled h.seat⟩
  subst he
  rfl

theorem turns {ms : List Moment} (ht : Turns now ms l l') : l'.Veiled excused own? key socket := by
  induction ht with
  | refl l => exact h
  | step ht _ ih => exact ih (h.turn ht id)

theorem greets {s : Session} {waiting : Waiting} {request : ConnectRequest}
    (hs : l.room.session? key = some s) (hw : s.state = .awaitingConnect waiting)
    (hsocket : waiting.socket = socket)
    (hf : l.room.presenceFault? key request.presenceId = none) (now : Nat) :
    (l.accept key s waiting request now).1.Veiled excused own? key socket ∨
      (l.accept key s waiting request now).1.Veiled excused (some request.presenceId) key socket ∧
        ∃ o, ((l.accept key s waiting request now).1.seat key socket).stage =
          some (.connected (some request.presenceId) o) := by
  let l' := (l.accept key s waiting request now).1
  have ht : Turn now (.greets key request) l l' := .greets l hs hw hf
  have hp := ht.placed h.placed
  have halone : l'.room.Alone key socket := ht.alone (fun _ he => by cases he) h.alone
  have hstage : (l.seat key socket).stage = some .waiting := by
    simp [LiveRoom.seat, hs, Session.stage?, hw, hsocket]
  obtain rfl := h.seat.waiting hstage
  have hdocument : l'.room.store.records.get? request.presenceId = none := by
    have hq := (l.readied key s request now).steady_welcome key s waiting request now
    obtain ⟨s', hs', hfades⟩ := hq.session ((Room.session?_seated ..).trans (if_pos rfl))
    exact hp.reserved key s' _ hs' hfades.presenceId
  have htold : ¬(l.accept key s waiting request now).2.hydration.Shows request.presenceId := by
    rw [(l.accept_told key s waiting request now).2]
    exact hp.not_shows_hydration hdocument _ _
  obtain he | he := seat_accept h.placed h.alone hsocket request now
  · refine .inr ⟨⟨hp, halone, ?_, ?_⟩, ?_⟩
    · rw [he]
      intro id? o ho
      obtain ⟨-, rfl⟩ := Stage.connected.inj (Option.some.inj ho)
      exact ⟨rfl, Outbox.windowed_start _ now⟩
    · rw [he]
      refine ⟨(by simp), fun id? o ho => ?_, List.forall_mem_append.2 ⟨fun msg hm => ?_, fun msg hm => ?_⟩⟩
      · obtain ⟨rfl, rfl⟩ := Stage.connected.inj (Option.some.inj ho)
        exact ⟨rfl, _, rfl, fun _ hm => absurd hm List.not_mem_nil⟩
      · exact (h.seat.taken msg hm).of_none _
      · obtain rfl := List.mem_singleton.1 hm
        exact ⟨_, rfl, htold⟩
    · rw [he]
      exact ⟨_, rfl⟩
  · refine .inl ⟨hp, halone, ?_, h.seat.lost he⟩
    rw [he]
    exact Seat.at_of_vacant rfl _

theorem serves {s : Session} {push : Push} (hs : l.room.session? key = some s)
    (hc : s.isConnected = true)
    (hanswer : ∀ own, s.presenceId = some own → (l.room.answer (some own) push).Shows own →
      excused own (l.room.answer (some own) push)) (now : Nat) :
    (l.serve key s.presenceId push now).Veiled excused own? key socket := by
  have ht : Turn now (.serves key push) l (l.serve key s.presenceId push now) := .serves l hs hc
  have htakes := takes_serve h.alone h.at_clock.ready s.presenceId push now
  refine ⟨ht.placed h.placed, ht.alone nofun h.alone, ?_, ?_⟩
  · refine h.at_clock.takes htakes ?_
    exact congrArg Moment.clock (l.moment_serve key s.presenceId push now).symm
  · refine h.seat.takes htakes fun own o hstage msg hm => ?_
    obtain ⟨s', _, hs', _, _, _, hid⟩ := stage_eq_connected hstage
    obtain rfl := Option.some.inj (hs.symm.trans hs')
    obtain rfl := List.mem_singleton.1 hm
    rw [hid]
    exact hanswer own hid

end Veiled

end LiveRoom

end RoomSync
