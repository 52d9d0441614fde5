import RoomSync.Proofs.Outbox
import RoomSync.Proofs.Room.Push

namespace RoomSync

open Table Room

/-- A patch that makes what a session sees at one moment what it sees at a later one. -/
structure Leads (own : RecordId) (m m' : Moment) (patch : Patch) : Prop where
  fromClock : patch.fromClock = m.clock
  toClock : patch.toClock = m'.clock
  later : m.clock < m'.clock
  view : m'.view own = patch.changes.applyTo (m.view own)

theorem Leads.absorb {own : RecordId} {m m' m'' : Moment} {p q : Patch} (h : Leads own m m' p)
    (h' : Leads own m' m'' q) : Leads own m m'' (p.absorb q) := by
  refine ⟨h.fromClock, h'.toClock, Nat.lt_trans h.later h'.later, ?_⟩
  rw [h'.view, h.view]
  exact (Changes.applyTo_union ..).symm

/-- Data messages that lead a session through moments of the past: each patch leads to the next
moment, and each result answers a push of the session. -/
inductive Trail (own : RecordId) (past : List Moment) :
    Moment → List DataMessage → List Push → Moment → Prop
  | nil (m : Moment) : Trail own past m [] [] m
  | patch {m m₁ m' : Moment} {patch : Patch} {msgs : List DataMessage} {answered : List Push} :
      Leads own m m₁ patch → m₁ ∈ past → Trail own past m₁ msgs answered m' →
      Trail own past m (.patch patch :: msgs) answered m'
  | result {m m₁ m' : Moment} {push : Push} {result : PushResult} {msgs : List DataMessage}
      {answered : List Push} :
      result.pushId = push.pushId → m.clock ≤ m₁.clock →
      Settles (some own) m m₁ push.mutations result → m₁ ∈ past →
      Trail own past m₁ msgs answered m' →
      Trail own past m (.pushResult result :: msgs) (push :: answered) m'

namespace Trail

variable {own : RecordId} {past past' : List Moment} {m m' m'' : Moment}
  {xs ys : List DataMessage} {answered answered' : List Push}

theorem mono (hpast : past ⊆ past') (h : Trail own past m xs answered m') :
    Trail own past' m xs answered m' := by
  induction h with
  | nil m => exact .nil m
  | patch hp hm _ ih => exact .patch hp (hpast hm) ih
  | result hid hclock hs hm _ ih => exact .result hid hclock hs (hpast hm) ih

theorem append (h : Trail own past m xs answered m') (h' : Trail own past m' ys answered' m'') :
    Trail own past m (xs ++ ys) (answered ++ answered') m'' := by
  induction h with
  | nil m => exact h'
  | patch hp hm _ ih => exact .patch hp hm (ih h')
  | result hid hclock hs hm _ ih => exact .result hid hclock hs hm (ih h')

theorem cut (h : Trail own past m (xs ++ ys) answered m'') :
    ∃ m' first second, answered = first ++ second ∧ Trail own past m xs first m' ∧
      Trail own past m' ys second m'' := by
  induction xs generalizing m answered with
  | nil => exact ⟨m, [], answered, rfl, .nil m, h⟩
  | cons msg rest ih =>
    cases h with
    | patch hp hm h =>
      obtain ⟨m', first, second, rfl, h₁, h₂⟩ := ih h
      exact ⟨m', first, second, rfl, .patch hp hm h₁, h₂⟩
    | @result _ _ _ push _ _ _ hid hclock hs hm h =>
      obtain ⟨m', first, second, rfl, h₁, h₂⟩ := ih h
      exact ⟨m', push :: first, second, rfl, .result hid hclock hs hm h₁, h₂⟩

theorem merges (hm : Merges xs ys) (h : Trail own past m xs answered m') :
    Trail own past m ys answered m' := by
  induction hm generalizing answered with
  | refl msgs => exact h
  | merge _ ih =>
    obtain ⟨m₁, first, second, rfl, h₁, h₂⟩ := h.cut
    refine ih (h₁.append ?_)
    cases h₂ with
    | patch hp _ h₂ =>
      cases h₂ with
      | patch hq hm h₂ => exact .patch (hp.absorb hq) hm h₂

theorem mem_past (h : Trail own past m xs answered m') (hm : m ∈ past) : m' ∈ past := by
  induction h with
  | nil m => exact hm
  | patch _ hm₁ _ ih => exact ih hm₁
  | result _ _ _ hm₁ _ ih => exact ih hm₁

theorem clock_le (h : Trail own past m xs answered m') : m.clock ≤ m'.clock := by
  induction h with
  | nil m => exact Nat.le_refl _
  | patch hp _ _ ih => exact Nat.le_trans (Nat.le_of_lt hp.later) ih
  | result _ hclock _ _ _ ih => exact Nat.le_trans hclock ih

end Trail

theorem Room.Shift.leads {r r' : Room} {changes : Changes} (h : Shift r r' changes)
    (hr : r.moment.Sound) (hr' : r'.moment.Sound) {own : RecordId} (hown : changes.get? own = none)
    (hdocument : r.store.records.get? own = none) :
    Leads own r.moment r'.moment ⟨r.clock, r'.clock, changes⟩ := by
  refine ⟨rfl, rfl, Nat.lt_of_lt_of_eq (Nat.lt_succ_self r.clock) h.clock.symm, ?_⟩
  have hrecords : r'.moment.records.get? own = r.moment.presence.get? own := by
    rw [h.records, Changes.get?_applyTo, hown, Option.elim_none, Moment.get?_records]
    change (r.moment.presence.get? own).or (r.store.records.get? own) = _
    rw [hdocument, Option.or_none]
  have hdocument' : r'.moment.documents.get? own = none := by
    refine Option.eq_none_iff_forall_not_mem.2 fun record hd => ?_
    have hd : r'.moment.documents.get? own = some record := hd
    have hp : r'.moment.presence.get? own = none :=
      Option.eq_none_iff_forall_not_mem.2 fun v hv => nomatch (hr'.disjoint own v hv).symm.trans hd
    rw [Moment.get?_records, hp, hd, Option.none_or] at hrecords
    have htype := hr'.documents_typed own record hd
    rw [hr.presence_typed own record hrecords.symm] at htype
    cases htype
  exact Moment.view_applyTo h.records hown hdocument hdocument'

end RoomSync
