import RoomSync.Proofs.Draft.Settlement
import RoomSync.Proofs.Room.Hydration
import RoomSync.Proofs.Room.Trail

namespace RoomSync

open Table Room

/-- A working copy shows a moment of the room, with the unsettled pushes on top. Nothing is said of
the client's own presence. -/
structure Based (own : RecordId) (m : Moment) (d : Draft) : Prop where
  clock : d.replica.clock = m.clock
  unsettled : ∀ id e, id ≠ own → d.lastPending? id = some e →
    d.replica.values.get? id = e.value
  settled : ∀ id, id ≠ own → d.lastPending? id = none →
    Agrees (d.replica.values.get? id) (m.records.get? id)

namespace Draft

/-- Whenever a result rejects an id, no other push that is unsettled then touches it. -/
def Untangled (d : Draft) : List DataMessage → Prop
  | [] => True
  | .patch patch :: rest => (d.foldData (.patch patch)).1.Untangled rest
  | .pushResult result :: rest =>
    (∀ rejection ∈ result.rejected, ∀ p ∈ d.pending, p.pushId ≠ result.pushId →
        ∀ m ∈ p.mutations, m.recordId ≠ rejection.recordId) ∧
      (d.foldData (.pushResult result)).1.Untangled rest

instance decidableUntangled (d : Draft) : (batch : List DataMessage) → Decidable (d.Untangled batch)
  | [] => isTrue trivial
  | .patch patch :: rest => decidableUntangled (d.foldData (.patch patch)).1 rest
  | .pushResult result :: rest =>
    have := decidableUntangled (d.foldData (.pushResult result)).1 rest
    inferInstanceAs (Decidable (_ ∧ _))

end Draft

namespace Based

variable {own : RecordId} {m m' : Moment} {d : Draft}

theorem rebase {replica : Replica} (hclock : replica.clock = m.clock)
    (h : ∀ id, id ≠ own → d.lastPending? id = none →
      Agrees (replica.values.get? id) (m.records.get? id)) : Based own m (d.rebase replica) := by
  refine ⟨?_, fun id e _ he => ?_, fun id hid hn => ?_⟩
  · rw [Draft.clock_rebase, hclock]
  · have he : d.lastPending? id = some e := he
    rw [Draft.get?_values_rebase, he]
    rfl
  · have hn : d.lastPending? id = none := hn
    rw [Draft.get?_values_rebase, hn]
    exact h id hid hn

theorem push (h : Based own m d) (mutations : List Mutation) :
    Based own m (d.push mutations).1 := by
  refine ⟨(Replica.clock_applyLocal ..).trans h.clock, fun id e hid he => ?_, fun id hid hn => ?_⟩
  · rw [Draft.lastPending?_push] at he
    rw [Draft.get?_values_push]
    cases hl : lastEdit? mutations id with
    | some last =>
      rw [hl, Option.some_or] at he
      exact congrArg Edit.value (Option.some.inj he)
    | none =>
      rw [hl, Option.none_or] at he
      exact h.unsettled id e hid he
  · rw [Draft.lastPending?_push, Option.or_eq_none_iff] at hn
    rw [Draft.get?_values_push, hn.1]
    exact h.settled id hid hn.2

theorem patch (h : Based own m d) {patch : Patch} (hp : Leads own m m' patch) :
    Based own m' (d.foldData (.patch patch)).1 := by
  have hfrom : patch.fromClock ≤ d.replica.clock := Nat.le_of_eq (hp.fromClock.trans h.clock.symm)
  have hto : d.replica.clock < patch.toClock := by
    rw [h.clock, hp.toClock]
    exact hp.later
  rw [Draft.foldData_patch hfrom hto]
  refine .rebase hp.toClock fun id hid hn => ?_
  have hm := congrArg (get? · id) hp.view
  simp only [Changes.get?_applyTo, Moment.get?_view_of_ne _ hid] at hm
  rw [hm, Replica.get?_values, Changes.get?_applyTo]
  cases patch.changes.get? id with
  | some change => exact agrees_refl _
  | none =>
    have hs := h.settled id hid hn
    rwa [Replica.get?_values] at hs

/-- A result brings a copy to the moment after its push was made in the room: what was rejected is
as it is there, and what was not rejected is as the push left it. -/
theorem settle (h : Based own m d) {result : PushResult} {mutations : List Mutation}
    (hle : m.clock ≤ m'.clock) (hs : Settles (some own) m m' mutations result)
    (hpending : ∀ id, d.lastPending? id =
      ((d.settle result).1.lastPending? id).or (lastEdit? mutations id))
    (hu : ∀ rejection ∈ result.rejected, ∀ p ∈ d.pending, p.pushId ≠ result.pushId →
      ∀ m ∈ p.mutations, m.recordId ≠ rejection.recordId) :
    Based own m' (d.settle result).1 := by
  refine ⟨?_, fun id e hid he => ?_, fun id hid hn => ?_⟩
  · change max d.replica.clock result.clock = m'.clock
    rw [h.clock, hs.clock]
    exact Nat.max_eq_right hle
  · -- A push that is still unsettled touches the id, so no rejection does.
    have hrestored : Entries.last? id result.restores = none := by
      refine Entries.last?_eq_none_iff.2 fun entry hentry => ?_
      obtain ⟨rejection, hr, rfl⟩ := List.mem_map.1 hentry
      obtain ⟨p, hp, hm⟩ := List.mem_flatMap.1 (mem_of_lastEdit? he)
      obtain ⟨hp, hne⟩ := List.mem_filter.1 hp
      exact (hu rejection hr p hp (of_decide_eq_true hne) _ hm).symm
    rw [Draft.get?_values_settle, hrestored]
    exact h.unsettled id e hid (by rw [hpending, he, Option.some_or])
  · have hne : some id ≠ some own := fun he => hid (Option.some.inj he)
    have hlast : d.lastPending? id = lastEdit? mutations id := by
      rw [hpending, hn, Option.none_or]
    rw [Draft.get?_values_settle]
    cases hrestored : Entries.last? id result.restores with
    | some current =>
      obtain ⟨rejection, hr, he⟩ := List.mem_map.1 (Entries.mem_of_last? hrestored)
      obtain ⟨rfl, rfl⟩ := Prod.mk.inj he
      rw [hs.rejected rejection hr hne]
      exact agrees_refl _
    | none =>
      have hno : ∀ rejection ∈ result.rejected, rejection.recordId ≠ id := fun rejection hr =>
        Entries.last?_eq_none_iff.1 hrestored (rejection.recordId, rejection.current)
          (List.mem_map.2 ⟨rejection, hr, rfl⟩)
      have haccepted := hs.accepted id hne hno
      cases he : lastEdit? mutations id with
      | some e =>
        rw [he] at haccepted hlast
        rw [Option.elim_none, h.unsettled id e hid hlast]
        exact haccepted
      | none =>
        rw [he] at haccepted hlast
        simp only at haccepted
        rw [Option.elim_none, haccepted]
        exact h.settled id hid hlast

end Based

/-- The pushes that are on their way or that the room has made are, in order, the unsettled ones,
except for those that were never sent. -/
structure Owes (d : Draft) (pushes : List Push) (unsent : List PendingPush) : Prop where
  numbered : d.Numbered
  documents : d.pending = documentPushes pushes ++ unsent
  presence : ∀ p ∈ pushes, p.presence.isSome → p.mutations = [] ∧ p.pushId < d.nextPushId ∧
    ∀ q ∈ d.pending, q.pushId ≠ p.pushId

namespace Owes

variable {d : Draft} {made : Push} {pushes : List Push} {unsent : List PendingPush}
  {result : PushResult}

theorem settle (h : Owes d (made :: pushes) unsent) (hid : result.pushId = made.pushId) :
    Owes (d.settle result).1 pushes unsent ∧
      ∀ id, d.lastPending? id =
        ((d.settle result).1.lastPending? id).or (lastEdit? made.mutations id) := by
  have hpending : (d.settle result).1.pending = d.pending.filter fun p => p.pushId ≠ result.pushId :=
    rfl
  have hsub : ∀ q ∈ (d.settle result).1.pending, q ∈ d.pending := fun q hq =>
    (List.mem_filter.1 (hpending ▸ hq)).1
  have hrest : ∀ p ∈ pushes, p.presence.isSome → p.mutations = [] ∧
      p.pushId < (d.settle result).1.nextPushId ∧
        ∀ q ∈ (d.settle result).1.pending, q.pushId ≠ p.pushId := fun p hp hsome =>
    have ⟨hm, hlt, hne⟩ := h.presence p (List.mem_cons_of_mem _ hp) hsome
    ⟨hm, hlt, fun q hq => hne q (hsub q hq)⟩
  cases hpresence : made.presence with
  | some content =>
    obtain ⟨hmutations, -, hne⟩ := h.presence made List.mem_cons_self (by rw [hpresence]; rfl)
    have hsame : (d.settle result).1.pending = d.pending := by
      rw [hpending]
      refine List.filter_eq_self.2 fun q hq => decide_eq_true ?_
      rw [hid]
      exact hne q hq
    refine ⟨⟨h.numbered.settle result, ?_, hrest⟩, fun id => ?_⟩
    · rw [hsame, h.documents, documentPushes, List.filterMap_cons, hpresence]
      rfl
    · rw [Draft.lastPending?, Draft.lastPending?, hsame, hmutations, lastEdit?_nil, Option.or_none]
  | none =>
    have hdocuments : d.pending =
        ⟨made.pushId, made.mutations⟩ :: (documentPushes pushes ++ unsent) := by
      rw [h.documents, documentPushes, List.filterMap_cons, hpresence]
      rfl
    have hafter : (d.settle result).1.pending = documentPushes pushes ++ unsent := by
      have hascending := List.pairwise_cons.1 (hdocuments ▸ h.numbered.ascending)
      rw [hpending, hdocuments, List.filter_cons_of_neg (by simp [hid])]
      refine List.filter_eq_self.2 fun q hq => decide_eq_true ?_
      rw [hid]
      exact Nat.ne_of_gt (hascending.1 q hq)
    refine ⟨⟨h.numbered.settle result, hafter, hrest⟩, fun id => ?_⟩
    rw [Draft.lastPending?, Draft.lastPending?, hafter, hdocuments, List.flatMap_cons,
      lastEdit?_append]

theorem patch (h : Owes d pushes unsent) (patch : Patch) :
    Owes (d.foldData (.patch patch)).1 pushes unsent := by
  obtain he | ⟨replica, event, he⟩ := Draft.foldData_patch_cases d patch
  · rw [he]
    exact h
  · rw [he]
    exact ⟨h.numbered.rebase replica, h.documents, h.presence⟩

theorem push (h : Owes d pushes unsent) (mutations : List Mutation) :
    Owes (d.push mutations).1 pushes (unsent ++ [(d.push mutations).2]) := by
  have hpending : (d.push mutations).1.pending = d.pending ++ [(d.push mutations).2] := rfl
  refine ⟨h.numbered.push mutations, ?_, fun p hp hsome => ?_⟩
  · rw [hpending, h.documents, List.append_assoc]
  · obtain ⟨hm, hlt, hne⟩ := h.presence p hp hsome
    refine ⟨hm, Nat.lt_succ_of_lt hlt, fun q hq => ?_⟩
    obtain hq | hq := List.mem_append.1 hq
    · exact hne q hq
    · obtain rfl := List.mem_singleton.1 hq
      exact Nat.ne_of_gt hlt

theorem sent (h : Owes d pushes unsent) :
    Owes d (pushes ++ unsent.map fun p => ⟨d.sessionKey, p.pushId, p.mutations, none⟩) [] := by
  refine ⟨h.numbered, ?_, fun p hp hsome => ?_⟩
  · rw [h.documents, documentPushes_append, List.append_nil, documentPushes_map]
  · obtain hp | hp := List.mem_append.1 hp
    · exact h.presence p hp hsome
    · obtain ⟨q, -, rfl⟩ := List.mem_map.1 hp
      cases hsome

theorem publish (h : Owes d pushes unsent) (content : Content) :
    Owes d.allot.1 (pushes ++ [⟨d.sessionKey, d.allot.2, [], some content⟩]) unsent := by
  refine ⟨h.numbered.allot, ?_, fun p hp hsome => ?_⟩
  · rw [documentPushes_append]
    change d.pending = _
    rw [h.documents, List.append_assoc]
    rfl
  · obtain hp | hp := List.mem_append.1 hp
    · obtain ⟨hm, hlt, hne⟩ := h.presence p hp hsome
      exact ⟨hm, Nat.lt_succ_of_lt hlt, hne⟩
    · obtain rfl := List.mem_singleton.1 hp
      exact ⟨rfl, Nat.lt_succ_self _, fun q hq => Nat.ne_of_lt (h.numbered.allotted q hq)⟩

end Owes

theorem Based.batch {own : RecordId} {past : List Moment} {m m' : Moment} {d : Draft}
    {batch : List DataMessage} {answered pushes : List Push} {unsent : List PendingPush}
    (ht : Trail own past m batch answered m') (h : Based own m d)
    (howes : Owes d (answered ++ pushes) unsent) (hu : d.Untangled batch) :
    Based own m' (d.foldBatch batch).1 ∧ Owes (d.foldBatch batch).1 pushes unsent := by
  induction ht generalizing d with
  | nil m => exact ⟨h, howes⟩
  | patch hp _ _ ih => exact ih (h.patch hp) (howes.patch _) hu
  | @result m m₁ _ push result _ _ hid hle hs _ _ ih =>
    obtain ⟨howes', hlast⟩ := howes.settle hid
    exact ih (h.settle hle hs hlast hu.1) howes' hu.2

theorem Agrees.isPresence {shown record : Record} (h : Agrees (some shown.value) (some record)) :
    shown.isPresence = record.isPresence := by
  obtain ⟨htype, -⟩ := Bool.and_eq_true_iff.1 h
  rw [Record.isPresence, Record.isPresence, of_decide_eq_true htype]
  rfl

theorem Moment.Sound.agrees_documents {m : Moment} (hm : m.Sound) {shown : Option Record}
    {id : RecordId} (h : Agrees (shown.map Record.value) (m.records.get? id)) :
    Agrees ((shown.filter fun r => !r.isPresence).map Record.value) (m.documents.get? id) := by
  rw [Moment.get?_records] at h
  cases hp : m.presence.get? id with
  | some record =>
    rw [hm.disjoint id record hp]
    rw [hp, Option.some_or] at h
    cases shown with
    | none => exact h.elim
    | some r =>
      have htype := h.isPresence.trans (hm.presence_typed id record hp)
      rw [Option.filter_some, htype]
      trivial
  | none =>
    rw [hp, Option.none_or] at h
    cases shown with
    | none => exact h
    | some r =>
      cases hd : m.documents.get? id with
      | none => rw [hd] at h; exact h.elim
      | some record =>
        rw [hd] at h
        have htype := h.isPresence.trans (hm.documents_typed id record hd)
        rw [Option.filter_some, htype]
        exact h

def Draft.Known (own : RecordId) (past : List Moment) (d : Draft) : Prop :=
  d.synced = true → ∃ m ∈ past, Based own m d

def Draft.Reaches (last : Option Nat) (d : Draft) : Prop :=
  ∀ since, last = some since → d.synced = true ∧ since ≤ d.replica.clock

namespace Draft

variable {own : RecordId} {past past' : List Moment} {d : Draft} {last : Option Nat}

theorem Known.mono (hpast : past ⊆ past') (h : d.Known own past) : d.Known own past' := fun hs =>
  have ⟨m, hm, hb⟩ := h hs
  ⟨m, hpast hm, hb⟩

theorem Known.push (h : d.Known own past) (mutations : List Mutation) :
    (d.push mutations).1.Known own past := fun hs =>
  have ⟨m, hm, hb⟩ := h hs
  ⟨m, hm, hb.push mutations⟩

theorem reaches_lastKnownClock (d : Draft) : d.Reaches d.lastKnownClock := by
  intro since hs
  rw [lastKnownClock] at hs
  split at hs
  · rename_i hsynced
    exact ⟨hsynced, Nat.le_of_eq (Option.some.inj hs).symm⟩
  · cases hs

theorem Reaches.push (h : d.Reaches last) (mutations : List Mutation) :
    (d.push mutations).1.Reaches last := by
  intro since hs
  obtain ⟨hsynced, hle⟩ := h since hs
  exact ⟨hsynced, Nat.le_trans hle (Nat.le_of_eq (Replica.clock_applyLocal ..).symm)⟩

end Draft

/-- A handshake brings a copy to the present, if it shows some moment that is not older than the
clock that it catches up from. -/
theorem Based.hydrate {own : RecordId} {past : List Moment} {r : Room} (hc : r.Chronicle past)
    {accepted : Accepted} {resumed : Bool} {last : Option Nat} (hclock : accepted.clock = r.clock)
    (hhydration : accepted.hydration = r.hydration resumed last own) {d : Draft}
    (hknown : d.Known own past) (hreaches : d.Reaches last) :
    Based own r.moment (d.hydrate accepted) := by
  rw [Draft.hydrate, hhydration]
  obtain he | ⟨since, hsince, hcan, he⟩ := hydration_cases r resumed last own
  · rw [he]
    refine .rebase hclock fun id hid hn => ?_
    change Agrees (Replica.values ⟨_, Record.table _⟩ |>.get? id) _
    rw [Replica.get?_values, table_full hc.sound, Moment.get?_view_of_ne _ hid]
    exact agrees_refl _
  · obtain ⟨hsynced, hle⟩ := hreaches since hsince
    obtain ⟨m, hm, hb⟩ := hknown hsynced
    let patch : Patch :=
      ⟨since, r.clock, (r.presenceOfOthers own).foldl Changes.put (r.store.changesSince since)⟩
    have hcatchUp : d.replica.catchUp patch = .ok ⟨r.clock, patch.changes.applyTo
        (d.replica.records.filter fun _ record => !record.isPresence)⟩ :=
      if_neg (Nat.not_lt.2 hle)
    rw [he]
    change Based own r.moment (Draft.rebase _ ((d.replica.catchUp patch).toOption.getD d.replica))
    rw [hcatchUp]
    refine .rebase rfl fun id hid hn => ?_
    have hview := congrArg (get? · id) (hc.catchUp hm (hb.clock ▸ hle) hcan own)
    simp only [Changes.get?_applyTo, Moment.get?_view_of_ne _ hid] at hview
    change Agrees (Replica.values ⟨_, _⟩ |>.get? id) _
    rw [← hview, Replica.get?_values, Changes.get?_applyTo]
    cases patch.changes.get? id with
    | some change => exact agrees_refl _
    | none =>
      have hs := hb.settled id hid hn
      rw [Replica.get?_values] at hs
      rw [Option.elim_none, Option.elim_none, get?_filter]
      exact (hc.moments m hm).agrees_documents hs

end RoomSync
