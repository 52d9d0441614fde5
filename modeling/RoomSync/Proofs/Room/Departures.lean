import RoomSync.Proofs.Draft.Departures
import RoomSync.Proofs.Room.Lanes

namespace RoomSync

open Table

/-- A client that takes what it was sent, and then what is held back for it. -/
def Draft.caughtUp (d : Draft) (sent : List ServerMessage) (held : List DataMessage) : Draft :=
  ((d.takeAll (sent.map .receive)).foldBatch held).1

theorem Draft.caughtUp_data (d : Draft) (batch held : List DataMessage) :
    d.caughtUp [.data batch] held = (d.foldBatch (batch ++ held)).1 :=
  (d.foldBatch_append batch held).symm

namespace Lane

variable {answer : SocketId → Nat → Option SocketError} {config : Config} {now clock : Nat}
  {lane lane' x y : Lane} {msg msg' : DataMessage} {ids ids' : List RecordId}

/-- As much is held back for both, and they differ in nothing but what is held back and what their
socket took. -/
structure Alongside (x y : Lane) : Prop where
  connected : y.connected =
    { x.connected with outbox := { x.connected.outbox with held := y.connected.outbox.held } }
  held : y.connected.outbox.held.length = x.connected.outbox.held.length
  given : y.given = x.given

theorem Alongside.refl (lane : Lane) : lane.Alongside lane := ⟨rfl, rfl, rfl⟩

theorem Alongside.exists_eq (h : x.Alongside y) :
    ∃ held taken, held.length = x.connected.outbox.held.length ∧
      y = ⟨{ x.connected with outbox := { x.connected.outbox with held } }, x.given, taken⟩ := by
  refine ⟨y.connected.outbox.held, y.taken, h.held, ?_⟩
  rw [← h.connected, ← h.given]

theorem Alongside.give (h : x.Alongside y) (msg msg' : ServerMessage) :
    Option.Rel Alongside (x.give answer msg) (y.give answer msg') := by
  have hsocket : y.connected.socket = x.connected.socket := by rw [h.connected]
  rw [Lane.give, Lane.give, hsocket, h.given]
  cases answer x.connected.socket x.given with
  | none => exact .some ⟨h.connected, h.held, rfl⟩
  | some error => exact .none

theorem Alongside.post (h : x.Alongside y) (hclock : msg'.clock = msg.clock) :
    Option.Rel Alongside (x.post answer config now msg) (y.post answer config now msg') := by
  obtain ⟨held', taken', hheld, rfl⟩ := h.exists_eq
  obtain ⟨⟨socket, schema, interaction, ⟨last, deadline, openedAt, held⟩⟩, given, taken⟩ := x
  have hheld : held'.length = held.length := hheld
  cases deadline with
  | none =>
    simp only [Lane.post, Outbox.enqueue, hclock]
    refine Alongside.give ?_ _ _
    exact ⟨rfl, hheld, rfl⟩
  | some deadline =>
    simp only [Lane.post, Outbox.enqueue, hclock, hheld]
    by_cases hfull : config.maxOutstanding ≤ held.length
    · rw [if_pos hfull, if_pos hfull]
      exact .none
    · rw [if_neg hfull, if_neg hfull]
      exact .some ⟨rfl, by simp [withOutbox, hheld], rfl⟩

theorem Alongside.flush (h : x.Alongside y) :
    Option.Rel Alongside (x.flush answer config now) (y.flush answer config now) := by
  obtain ⟨held', taken', hheld, rfl⟩ := h.exists_eq
  obtain ⟨⟨socket, schema, interaction, ⟨last, deadline, openedAt, held⟩⟩, given, taken⟩ := x
  have hheld : held'.length = held.length := hheld
  have hempty : held'.isEmpty = held.isEmpty := by
    cases held <;> cases held' <;> simp_all
  cases deadline with
  | none => exact .some ⟨rfl, hheld, rfl⟩
  | some deadline =>
    simp only [Lane.flush, Outbox.flushDue, hempty]
    by_cases hdue : now < deadline
    · rw [if_pos hdue, if_pos hdue]
      exact .some ⟨rfl, hheld, rfl⟩
    · rw [if_neg hdue, if_neg hdue]
      by_cases hnothing : held.isEmpty = true
      · rw [if_pos hnothing, if_pos hnothing]
        exact .some ⟨rfl, hheld, rfl⟩
      · rw [if_neg hnothing, if_neg hnothing]
        refine Alongside.give ?_ (.data (coalesce held)) (.data (coalesce held'))
        exact ⟨rfl, rfl, rfl⟩

theorem rel_bind {f g : Lane → Option Lane} {x? y? : Option Lane} (h : Option.Rel Alongside x? y?)
    (hrel : ∀ x y, x.Alongside y → Option.Rel Alongside (f x) (g y)) :
    Option.Rel Alongside (x?.bind f) (y?.bind g) := by
  cases h with
  | none => exact .none
  | some h => exact hrel _ _ h

theorem Alongside.withdraw (h : x.Alongside y) (hlength : ids.length = ids'.length) (clock : Nat) :
    Option.Rel Alongside (x.withdraw answer config now clock ids)
      (y.withdraw answer config now clock ids') := by
  induction ids generalizing clock x y ids' with
  | nil =>
    obtain rfl := List.length_eq_zero_iff.1 hlength.symm
    exact .some h
  | cons id ids ih =>
    obtain ⟨id', ids', rfl⟩ := List.exists_cons_of_length_eq_add_one hlength.symm
    have hpost : Option.Rel Alongside
        (x.postPatch answer config now (clock + 1) (Table.empty.insert id .remove))
        (y.postPatch answer config now (clock + 1) (Table.empty.insert id' .remove)) := h.post rfl
    exact rel_bind hpost fun x y h => ih h (Nat.succ.inj hlength) (clock + 1)

theorem give_eq_some {msg : ServerMessage} (h : lane.give answer msg = some lane') :
    lane' = { lane with given := lane.given + 1, taken := lane.taken ++ [msg] } := by
  rw [give] at h
  split at h
  · exact (Option.some.inj h).symm
  · cases h

theorem post_eq_some (h : lane.post answer config now msg = some lane') :
    lane'.connected.outbox.deadline ≠ none ∧ lane'.connected.outbox.lastSent = msg.clock ∧
      if lane.connected.outbox.deadline = none then
        lane'.taken = lane.taken ++ [.data [msg]] ∧
          lane'.connected.outbox.held = lane.connected.outbox.held
      else
        lane'.taken = lane.taken ∧
          lane'.connected.outbox.held = lane.connected.outbox.held ++ [msg] := by
  obtain ⟨⟨socket, schema, interaction, ⟨last, deadline, openedAt, held⟩⟩, given, taken⟩ := lane
  cases deadline with
  | none =>
    obtain rfl := give_eq_some h
    exact ⟨Option.some_ne_none _, rfl, rfl, rfl⟩
  | some deadline =>
    simp only [post, Outbox.enqueue] at h
    by_cases hfull : config.maxOutstanding ≤ held.length
    · rw [if_pos hfull] at h
      cases h
    · rw [if_neg hfull] at h
      obtain rfl := Option.some.inj h
      exact ⟨Option.some_ne_none _, rfl, rfl, rfl⟩

theorem withdraw_open (hopen : lane.connected.outbox.deadline ≠ none)
    (hlast : lane.connected.outbox.lastSent = clock)
    (h : lane.withdraw answer config now clock ids = some lane') :
    lane'.taken = lane.taken ∧ lane'.connected.outbox.held =
      lane.connected.outbox.held ++ (departures clock ids).map .patch := by
  induction ids generalizing clock lane with
  | nil =>
    obtain rfl := Option.some.inj h
    exact ⟨rfl, (List.append_nil _).symm⟩
  | cons id ids ih =>
    obtain ⟨next, hnext, hrest⟩ := Option.bind_eq_some_iff.1 h
    obtain ⟨hopen', hlast', hposted⟩ := post_eq_some hnext
    rw [if_neg hopen] at hposted
    obtain ⟨htaken, hheld⟩ := ih hopen' hlast' hrest
    refine ⟨htaken.trans hposted.1, ?_⟩
    rw [hheld, hposted.2, Outbox.patchTo, hlast, List.append_assoc]
    rfl

theorem withdraw_closed {id : RecordId} (hclosed : lane.connected.outbox.deadline = none)
    (hheld : lane.connected.outbox.held = []) (hlast : lane.connected.outbox.lastSent = clock)
    (h : lane.withdraw answer config now clock (id :: ids) = some lane') :
    lane'.taken =
        lane.taken ++ [.data [.patch ⟨clock, clock + 1, Table.empty.insert id .remove⟩]] ∧
      lane'.connected.outbox.held = (departures (clock + 1) ids).map .patch := by
  obtain ⟨next, hnext, hrest⟩ := Option.bind_eq_some_iff.1 h
  obtain ⟨hopen, hlast', hposted⟩ := post_eq_some hnext
  rw [if_pos hclosed, Outbox.patchTo, hlast] at hposted
  obtain ⟨htaken, hheld'⟩ := withdraw_open hopen hlast' hrest
  refine ⟨htaken.trans hposted.1, ?_⟩
  rw [hheld', hposted.2, hheld]
  rfl

theorem flush_eq_some (h : lane.flush answer config now = some lane') :
    (lane'.taken = lane.taken ∧ lane'.connected.outbox.held = lane.connected.outbox.held) ∨
      (lane'.taken = lane.taken ++ [.data (coalesce lane.connected.outbox.held)] ∧
        lane'.connected.outbox.held = []) := by
  have hcases := lane.connected.outbox.flushDue_cases now config.debounce
  rw [flush] at h
  generalize lane.connected.outbox.flushDue now config.debounce = flushed at hcases h
  obtain ⟨outbox, due⟩ := flushed
  obtain ⟨rfl, hheld⟩ | ⟨rfl, hheld⟩ : (due = none ∧ outbox.held = lane.connected.outbox.held) ∨
      (due = some (coalesce lane.connected.outbox.held) ∧ outbox.held = []) := hcases
  · obtain rfl := Option.some.inj h
    exact .inl ⟨rfl, hheld⟩
  · obtain rfl := give_eq_some h
    exact .inr ⟨rfl, hheld⟩

/-- What a client comes to when presence records have gone: the patches are merged on top of what
was held back for it before, or together with that if a window was open and all was sent in the
end. -/
def expected (lane : Lane) (d : Draft) (clock : Nat) (ids : List RecordId)
    (left : List DataMessage) : Draft :=
  let outbox := lane.connected.outbox
  let patches := (departures clock ids).map .patch
  if outbox.deadline ≠ none ∧ left = [] then (d.foldBatch (coalesce (outbox.held ++ patches))).1
  else ((d.foldBatch outbox.held).1.foldBatch (coalesce patches)).1

/-- It matters neither in which order the records went nor what is left, but whether something
is. -/
theorem expected_perm (lane : Lane) (d : Draft) (clock : Nat) (hids : ids.Perm ids')
    {left left' : List DataMessage} (hleft : left.length = left'.length) :
    lane.expected d clock ids left = lane.expected d clock ids' left' := by
  have hpatches := coalesce_departures_perm clock hids
  have hnone : left = [] ↔ left' = [] := by
    rw [← List.length_eq_zero_iff, hleft, List.length_eq_zero_iff]
  simp only [expected, hpatches, coalesce_append_congr lane.connected.outbox.held hpatches, hnone]

section
variable (hlast : lane.connected.outbox.lastSent = clock)
  (h : (lane.withdraw answer config now clock ids).bind (flush answer config now) = some lane')
include hlast h

theorem agrees_expected_closed (hclosed : lane.connected.outbox.deadline = none)
    (hheld : lane.connected.outbox.held = []) :
    let left := lane'.connected.outbox.held
    ∃ sent, lane'.taken = lane.taken ++ sent ∧ ∀ d : Draft, d.replica.clock ≤ clock →
      let expected := lane.expected d clock ids left
      Draft.Agrees (expected.pending = []) (d.caughtUp sent left) expected := by
  intro left
  obtain ⟨next, hnext, hflush⟩ := Option.bind_eq_some_iff.1 h
  have hexpected : ∀ d, lane.expected d clock ids left =
      (d.foldBatch (coalesce ((departures clock ids).map .patch))).1 := fun d => by
    rw [expected, if_neg fun hopen => hopen.1 hclosed, hheld]
    rfl
  simp only [hexpected]
  cases ids with
  | nil =>
    obtain rfl := Option.some.inj hnext
    obtain ⟨htaken, hleft⟩ | ⟨htaken, hleft⟩ := flush_eq_some hflush
    · refine ⟨[], htaken.trans (List.append_nil _).symm, fun d _ => ?_⟩
      rw [show left = [] from hleft.trans hheld]
      exact .refl d
    · refine ⟨_, htaken, fun d _ => ?_⟩
      rw [Draft.caughtUp_data, hheld, show left = [] from hleft]
      exact .refl d
  | cons id ids =>
    obtain ⟨hsent, hrest⟩ := withdraw_closed hclosed hheld hlast hnext
    obtain ⟨htaken, hleft⟩ | ⟨htaken, hleft⟩ := flush_eq_some hflush
    · refine ⟨_, htaken.trans hsent, fun d hd => ?_⟩
      rw [Draft.caughtUp_data, show left = _ from hleft.trans hrest, Draft.pending_departures]
      exact Draft.agrees_departures hd (id :: ids)
    · rw [hsent, List.append_assoc] at htaken
      refine ⟨_, htaken, fun d hd => ?_⟩
      rw [show left = [] from hleft, hrest]
      exact Draft.agrees_first_departure hd id ids

theorem agrees_expected_open (hopen : lane.connected.outbox.deadline ≠ none)
    (hheld : ∀ msg ∈ lane.connected.outbox.held, msg.clock ≤ clock) :
    let left := lane'.connected.outbox.held
    ∃ sent, lane'.taken = lane.taken ++ sent ∧ ∀ d : Draft, d.replica.clock ≤ clock →
      let expected := lane.expected d clock ids left
      Draft.Agrees (expected.pending = []) (d.caughtUp sent left) expected := by
  intro left
  obtain ⟨next, hnext, hflush⟩ := Option.bind_eq_some_iff.1 h
  obtain ⟨hsent, hall⟩ := withdraw_open hopen hlast hnext
  obtain ⟨htaken, hleft⟩ | ⟨htaken, hleft⟩ := flush_eq_some hflush
  · refine ⟨[], (htaken.trans hsent).trans (List.append_nil _).symm, fun d hd => ?_⟩
    have hleft : left = _ := hleft.trans hall
    by_cases hnothing : left = []
    · rw [expected, if_pos ⟨hopen, hnothing⟩, ← hleft, hnothing]
      exact .refl d
    · rw [expected, if_neg fun hsent => hnothing hsent.2, hleft]
      exact Draft.agrees_held_departures (Draft.clock_foldBatch_le hheld hd) ids
  · refine ⟨_, htaken.trans (by rw [hsent]), fun d _ => ?_⟩
    rw [expected, if_pos ⟨hopen, hleft⟩, Draft.caughtUp_data, show left = [] from hleft, hall,
      List.append_nil]
    exact .refl _

theorem agrees_expected (hwindowed : lane.connected.outbox.Windowed)
    (hheld : ∀ msg ∈ lane.connected.outbox.held, msg.clock ≤ clock) :
    let left := lane'.connected.outbox.held
    ∃ sent, lane'.taken = lane.taken ++ sent ∧ ∀ d : Draft, d.replica.clock ≤ clock →
      let expected := lane.expected d clock ids left
      Draft.Agrees (expected.pending = []) (d.caughtUp sent left) expected := by
  by_cases hclosed : lane.connected.outbox.deadline = none
  · exact agrees_expected_closed hlast h hclosed (hwindowed hclosed)
  · exact agrees_expected_open hlast h hclosed hheld

end

end Lane

end RoomSync
