import RoomSync.Proofs.Room.Informed
import RoomSync.Proofs.Room.Past
import RoomSync.Proofs.Room.Trail

namespace RoomSync

open Table Room

/-- Since it had taken some messages, at some moment, a socket was supplied with everything, as far
as it was taken or is held back; or the session has lost the socket, after it had taken a part of a
trail. -/
inductive Supplied (own : RecordId) (past : List Moment) (m : Moment) (before : List ServerMessage)
    (answered : List Push) (m' : Moment) (seat : Seat) : Prop
  | connected {later : List ServerMessage} {o : Outbox} :
      seat.stage = some (.connected (some own) o) → seat.taken = before ++ later →
      (∀ msg ∈ later, msg.isLater = true) →
      Trail own past m (later.flatMap ServerMessage.contents ++ o.held) answered m' →
      Supplied own past m before answered m' seat
  | lost {later : List ServerMessage} {rest : List DataMessage} {answers : List Push}
      {m₁ : Moment} :
      seat.stage = none → seat.closed = true → seat.taken = before ++ later →
      (∀ msg ∈ later, msg.isLater = true) → answers <+: answered →
      Trail own past m (later.flatMap ServerMessage.contents ++ rest) answers m₁ →
      Supplied own past m before answered m' seat

namespace Supplied

variable {own : RecordId} {past past' : List Moment} {m m₁ m₂ : Moment}
  {before : List ServerMessage} {answered more : List Push} {posted : List DataMessage} {x y : Seat}

theorem mono (hpast : past ⊆ past') (h : Supplied own past m before answered m₁ x) :
    Supplied own past' m before answered m₁ x := by
  cases h with
  | connected hstage htaken hlater h => exact .connected hstage htaken hlater (h.mono hpast)
  | lost hstage hclosed htaken hlater hbegins h =>
    exact .lost hstage hclosed htaken hlater hbegins (h.mono hpast)

theorem taken (h : Supplied own past m before answered m₁ x) : ∃ later, x.taken = before ++ later := by
  cases h with
  | connected _ htaken _ _ => exact ⟨_, htaken⟩
  | lost _ _ htaken _ _ _ => exact ⟨_, htaken⟩

theorem of_loses {o : Outbox} {later msgs : List ServerMessage}
    (h : Trail own past m (later.flatMap ServerMessage.contents ++ (o.held ++ posted)) answered m₁)
    (hloses : (Stage.connected (some own) o).Loses posted (msgs.flatMap ServerMessage.contents))
    (htaken : x.taken = before ++ later) (hlater : ∀ msg ∈ later ++ msgs, msg.isLater = true) :
    Supplied own past m before answered m₂ ⟨x.taken ++ msgs, true, none⟩ := by
  obtain ⟨rest, hrest⟩ := hloses
  have htrail := h.merges (hrest.append_left (later.flatMap ServerMessage.contents))
  rw [← List.append_assoc, ← List.flatMap_append] at htrail
  exact .lost rfl rfl (by rw [htaken, List.append_assoc]) hlater List.prefix_rfl htrail

theorem takes (h : Supplied own past m before answered m₁ x) (ht : Takes posted x y)
    (htrail : Trail own past m₁ posted more m₂) :
    Supplied own past m before (answered ++ more) m₂ y := by
  cases h with
  | @connected later o hstage htaken hlater h =>
    have hall := h.append htrail
    rw [List.append_assoc] at hall
    cases ht with
    | vacant hv _ => cases hv.symm.trans hstage
    | waiting _ hw _ _ => cases hw.symm.trans hstage
    | connected own' o₁ o₂ msgs hx hy hlater' hm _ _ =>
      obtain ⟨rfl, rfl⟩ := Stage.connected.inj (Option.some.inj (hx.symm.trans hstage))
      have htrail := hall.merges (hm.append_left (later.flatMap ServerMessage.contents))
      rw [← List.append_assoc, ← List.flatMap_append] at htrail
      refine .connected (by rw [hy]) (by rw [hy, htaken, List.append_assoc]) (fun msg hm => ?_) htrail
      exact (List.mem_append.1 hm).elim (hlater msg) (hlater' msg)
    | lost stage msgs hx hy hlater' hloses =>
      obtain rfl := Option.some.inj (hx.symm.trans hstage)
      rw [hy]
      refine of_loses hall hloses htaken fun msg hm => ?_
      exact (List.mem_append.1 hm).elim (hlater msg) (hlater' msg)
  | lost hstage hclosed htaken hlater hbegins h =>
    rw [ht.eq_of_vacant hstage]
    exact .lost hstage hclosed htaken hlater (hbegins.trans (List.prefix_append ..)) h

theorem next (h : Supplied own past m before answered m₁ x) (hopen : x.closed = false)
    {msg : ServerMessage} (hmsg : x.taken[before.length]? = some msg) :
    msg.isLater = true ∧ ∃ m' first second, answered = first ++ second ∧
      Trail own past m msg.contents first m' ∧
      Supplied own past m' (before ++ [msg]) second m₁ x := by
  cases h with
  | lost _ hclosed _ _ _ _ => cases hclosed.symm.trans hopen
  | @connected later o hstage htaken hlater h =>
    rw [htaken, List.getElem?_append_right (Nat.le_refl _), Nat.sub_self] at hmsg
    cases later with
    | nil => cases hmsg
    | cons first rest =>
      obtain rfl := Option.some.inj hmsg
      rw [List.flatMap_cons, List.append_assoc] at h
      obtain ⟨m', first, second, he, h₁, h₂⟩ := h.cut
      refine ⟨hlater _ List.mem_cons_self, m', first, second, he, h₁, ?_⟩
      exact .connected hstage (by rw [htaken, List.append_assoc]; rfl)
        (fun msg hm => hlater msg (List.mem_cons_of_mem _ hm)) h₂

theorem gone (h : Supplied own past m before answered m₁ x) (ht : Takes [] x y)
    (hgone : y.stage = none) : Supplied own past m before answered m₂ y := by
  cases h with
  | connected hstage htaken hlater h =>
    cases ht with
    | vacant hv _ => cases hv.symm.trans hstage
    | waiting _ hw _ _ => cases hw.symm.trans hstage
    | connected _ _ _ _ _ hy _ _ _ _ =>
      rw [hy] at hgone
      cases hgone
    | lost stage msgs hx hy hlater' hloses =>
      obtain rfl := Option.some.inj (hx.symm.trans hstage)
      rw [hy]
      rw [← List.append_nil (Outbox.held _)] at h
      refine of_loses h hloses htaken fun msg hm => ?_
      exact (List.mem_append.1 hm).elim (hlater msg) (hlater' msg)
  | lost hstage hclosed htaken hlater hbegins h =>
    rw [ht.eq_of_vacant hstage]
    exact .lost hstage hclosed htaken hlater hbegins h

end Supplied

namespace LiveRoom

variable {σ : Type} {l l' : LiveRoom (Journal σ)} {key : String} {socket : SocketId}
  {now : Nat} {past past' ms : List Moment}

theorem Informed.takes (h : Informed key socket l l') :
    ∃ posted, Takes posted (l.seat key socket) (l'.seat key socket) := by
  cases h with
  | quiet _ ht => exact ⟨_, ht⟩
  | moved _ _ _ ht => exact ⟨_, ht⟩
  | gone ht _ => exact ⟨_, ht⟩

theorem Informed.supplied (hi : Informed key socket l l') (hs : l.room.Sound)
    (hs' : l'.room.Sound) (hpast : l'.room.moment ∈ past) {own : RecordId} {m : Moment}
    {before : List ServerMessage} {answered : List Push}
    (h : Supplied own past m before answered l.room.moment (l.seat key socket)) :
    Supplied own past m before answered l'.room.moment (l'.seat key socket) := by
  cases hi with
  | quiet hr ht =>
    rw [← List.append_nil answered]
    exact h.takes ht (hr.moment ▸ .nil _)
  | gone ht hgone => exact h.gone ht hgone
  | moved changes hshift hown ht =>
    cases h with
    | lost hstage hclosed htaken hlater hbegins h =>
      rw [ht.eq_of_vacant hstage]
      exact .lost hstage hclosed htaken hlater hbegins h
    | connected hstage htaken hlater h =>
      obtain ⟨s, _, hsession, _, _, _, hid⟩ := stage_eq_connected hstage
      have hleads := hshift.leads hs.moment hs'.moment (hown own _ hstage)
        (hs.reserved key s own hsession hid)
      rw [← List.append_nil answered]
      exact (Supplied.connected hstage htaken hlater h).takes ht (.patch hleads hpast (.nil _))

/-- A room in which the socket belongs to nobody else, and is sent everything if it is connected. -/
structure Attended (past : List Moment) (l : LiveRoom (Journal σ)) (key : String)
    (socket : SocketId) : Prop where
  chronicle : l.room.Chronicle past
  alone : l.room.Alone key socket
  at_clock : (l.seat key socket).At l.room.clock

variable [Host σ]

theorem Turn.alone {deed : Deed} (ht : Turn now deed l l')
    (hopens : ∀ k, deed ≠ .opens k socket) (ha : l.room.Alone key socket) :
    l'.room.Alone key socket := by
  intro k s' hs' hsocket
  obtain ⟨s, hs, hsocket⟩ := ht.socket hopens hs' hsocket
  exact ha k s hs hsocket

structure Passes (past : List Moment) (l l' : LiveRoom (Journal σ)) (key : String)
    (socket : SocketId) : Prop where
  attended : Attended past l' key socket
  takes : ∃ posted, Takes posted (l.seat key socket) (l'.seat key socket)
  supplied : ∀ past' own m before answered, past ⊆ past' →
    Supplied own past' m before answered l.room.moment (l.seat key socket) →
    Supplied own past' m before answered l'.room.moment (l'.seat key socket)

omit [Host σ] in
theorem Passes.trans {l'' : LiveRoom (Journal σ)} (h : Passes past l l' key socket)
    (h' : Passes (past ++ ms) l' l'' key socket) : Passes (past ++ ms) l l'' key socket := by
  obtain ⟨posted, ht⟩ := h.takes
  obtain ⟨posted', ht'⟩ := h'.takes
  refine ⟨h'.attended, ⟨posted ++ posted', ht.trans ht'⟩, fun past' own m before answered hp hs => ?_⟩
  exact h'.supplied _ _ _ _ _ hp
    (h.supplied _ _ _ _ _ (List.Subset.trans (List.subset_append_left ..) hp) hs)

omit [Host σ] in
theorem Passes.congr (h : Passes past l l' key socket) (hmem : ∀ m, m ∈ past' ↔ m ∈ past) :
    Passes past' l l' key socket :=
  ⟨⟨h.attended.chronicle.congr hmem, h.attended.alone, h.attended.at_clock⟩, h.takes,
    fun _ _ _ _ _ hp => h.supplied _ _ _ _ _ (List.Subset.trans (fun m hm => (hmem m).2 hm) hp)⟩

omit [Host σ] in
theorem Attended.passes (h : Attended past l key socket) : Passes past l l key socket :=
  ⟨h, ⟨[], .refl h.at_clock.ready⟩, fun _ _ _ _ _ _ hs => hs⟩

theorem Attended.turn (h : Attended past l key socket) {deed : Deed} (ht : Turn now deed l l')
    (hdeed : ¬deed.Concerns key socket (l.seat key socket).stage) :
    Passes (past ++ [l'.room.moment]) l l' key socket := by
  have hi := ht.informed h.chronicle.sound.placed h.alone h.at_clock hdeed
  have hc := ht.chronicle h.chronicle
  refine ⟨⟨hc, ht.alone (fun k he => hdeed ?_) h.alone, hi.at_clock h.at_clock⟩, hi.takes,
    fun _ _ _ _ _ hp hs => hi.supplied h.chronicle.sound hc.sound (hp hc.now) hs⟩
  subst he
  rfl

theorem Attended.turns (h : Attended past l key socket) (ht : Turns now ms l l') :
    Passes (past ++ ms) l l' key socket := by
  induction ht generalizing past with
  | refl l =>
    rw [List.append_nil]
    exact h.passes
  | step ht _ ih =>
    have hp := h.turn ht id
    rw [List.append_cons]
    exact hp.trans (ih hp.attended)

omit [Host σ] in
theorem concerns_of_takes {posted : List DataMessage} {x y : Seat} (h : Takes posted x y)
    {deed : Deed} (hy : deed.Concerns key socket y.stage) : deed.Concerns key socket x.stage := by
  cases deed with
  | inner => exact hy
  | opens k t => exact hy
  | greets k request =>
    exact ⟨hy.1, h.was_waiting hy.2⟩
  | serves k push =>
    refine ⟨hy.1, fun hx => hy.2 ?_⟩
    rw [h.eq_of_vacant hx, hx]

theorem Attended.episode (h : Attended past l key socket) {deed : Deed}
    (he : Episode now deed ms l l')
    (hdeed : ¬deed.Concerns key socket (l.seat key socket).stage) :
    Passes (past ++ ms) l l' key socket := by
  cases he with
  | undone ht => exact h.turns ht
  | @done _ _ _ ms ht hdone =>
    have hp := h.turns ht
    obtain ⟨_, htakes⟩ := hp.takes
    have hp' := hp.attended.turn hdone fun hc => hdeed (concerns_of_takes htakes hc)
    rw [← List.append_assoc]
    exact hp.trans hp'

end LiveRoom

end RoomSync
