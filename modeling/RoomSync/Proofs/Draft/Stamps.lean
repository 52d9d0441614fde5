import RoomSync.Proofs.Content.Equality
import RoomSync.Proofs.Draft.Based
import RoomSync.Proofs.Draft.Coalescing
import RoomSync.Proofs.Draft.PendingWrites

namespace RoomSync

open Table

structure PushResult.Answers (result : PushResult) (push : Push) : Prop where
  pushId : result.pushId = push.pushId
  named : ∀ rejection ∈ result.rejected, ∀ record, rejection.current = some record →
    record.id = rejection.recordId

namespace Replica

theorem get?_editOne (r : Replica) (m : Mutation) (id : RecordId) :
    (r.editOne m).get? id =
      if m.recordId = id then
        match m.edit with
        | .upsert typeName content =>
          some ⟨id, typeName, content, ((r.get? id).map Record.stamp).getD r.clock⟩
        | .delete => none
      else r.get? id := by
  by_cases h : m.recordId = id
  · subst h
    rw [if_pos rfl, editOne]
    cases m.edit with
    | upsert typeName content =>
      refine (get?_insert ..).trans ((if_pos rfl).trans ?_)
      cases r.get? m.recordId <;> rfl
    | delete => exact (get?_erase ..).trans (if_pos rfl)
  · rw [if_neg h, editOne]
    cases m.edit with
    | upsert typeName content => exact (get?_insert ..).trans (if_neg (Ne.symm h))
    | delete => exact (get?_erase ..).trans (if_neg (Ne.symm h))

theorem id_applyLocal {r : Replica} {mutations : List Mutation} {id : RecordId}
    (h : lastEdit? mutations id = none → ∀ record, r.get? id = some record → record.id = id)
    {record : Record} (hr : (r.applyLocal mutations).get? id = some record) : record.id = id := by
  induction mutations generalizing r with
  | nil => exact h rfl record hr
  | cons m rest ih =>
    refine ih (r := r.editOne m) (fun hnone record hr => ?_) hr
    rw [get?_editOne] at hr
    split at hr
    · split at hr
      · exact (congrArg Record.id (Option.some.inj hr)).symm
      · cases hr
    · rename_i hm
      exact h (by rw [lastEdit?_cons, hnone, if_neg hm]; rfl) record hr

theorem get?_foldl_restamp (clock : Nat) (ids : List RecordId) (records : Table Record)
    (id : RecordId) :
    (ids.foldl (restamp clock) records).get? id =
      if id ∈ ids then (records.get? id).map fun r => { r with stamp := clock }
      else records.get? id := by
  induction ids generalizing records with
  | nil => rfl
  | cons i rest ih =>
    rw [List.foldl_cons, ih, get?_restamp]
    by_cases hi : id = i
    · rw [if_pos hi, if_pos (List.mem_cons.2 (.inl hi)), Option.map_map]
      exact ite_self _
    · simp only [hi, if_false, List.mem_cons, false_or]

theorem id_of_get?_foldl_restamp {clock : Nat} {ids : List RecordId} {records : Table Record}
    {id : RecordId} {record : Record}
    (h : (ids.foldl (restamp clock) records).get? id = some record) :
    ∃ old, records.get? id = some old ∧ record.id = old.id := by
  rw [get?_foldl_restamp] at h
  split at h
  · obtain ⟨old, hold, rfl⟩ := Option.map_eq_some_iff.1 h
    exact ⟨old, hold, rfl⟩
  · exact ⟨record, h, rfl⟩

end Replica

namespace Draft

variable {d : Draft}

def Named (d : Draft) : Prop :=
  ∀ id e, d.lastPending? id = some e → ∀ record, d.replica.get? id = some record → record.id = id

theorem named_start (key : String) : (start key).Named := fun _ _ h => nomatch h

theorem named_rebase (d : Draft) (replica : Replica) : (d.rebase replica).Named := by
  intro id e he record hr
  rw [rebase, overlay_eq_applyLocal] at hr
  exact Replica.id_applyLocal (fun hnone => absurd (he.symm.trans hnone) (Option.some_ne_none e)) hr

theorem Named.push (h : d.Named) (mutations : List Mutation) : (d.push mutations).1.Named := by
  intro id e he record hr
  refine Replica.id_applyLocal (fun hnone => ?_) hr
  rw [lastPending?_push, hnone, Option.none_or] at he
  exact h id e he

theorem get?_settle (d : Draft) (result : PushResult) (id : RecordId) :
    (d.settle result).1.replica.get? id =
      (Entries.last? id result.restores).getD
        (((((d.pending.find? fun p => p.pushId = result.pushId).elim [] PendingPush.mutations).map
          (·.recordId)).filter fun id => !(result.rejected.map (·.recordId)).contains id).foldl
            (Replica.restamp result.clock) d.replica.records |>.get? id) :=
  Replica.get?_foldl_restore ..

theorem Named.settle (h : d.Named) {result : PushResult} {push : Push}
    (ha : result.Answers push)
    (hlast : ∀ id e, (d.settle result).1.lastPending? id = some e → d.lastPending? id = some e) :
    (d.settle result).1.Named := by
  intro id e he record hr
  rw [get?_settle] at hr
  cases hrestored : Entries.last? id result.restores with
  | some current =>
    rw [hrestored] at hr
    obtain ⟨rejection, hmem, heq⟩ := List.mem_map.1 (Entries.mem_of_last? hrestored)
    obtain ⟨rfl, rfl⟩ := Prod.mk.inj heq
    exact ha.named rejection hmem record hr
  | none =>
    rw [hrestored] at hr
    obtain ⟨old, hold, hid⟩ := Replica.id_of_get?_foldl_restamp hr
    exact hid.trans (h id e (hlast id e he) old hold)

theorem get?_settle_accepted {made : Push} {pushes : List Push} {unsent : List PendingPush}
    {result : PushResult} (ho : Owes d (made :: pushes) unsent)
    (hpush : result.pushId = made.pushId) {id : RecordId} {e : Edit}
    (he : lastEdit? made.mutations id = some e)
    (hno : ∀ rejection ∈ result.rejected, rejection.recordId ≠ id) :
    (d.settle result).1.replica.get? id =
      (d.replica.get? id).map fun r => { r with stamp := result.clock } := by
  have hpresence : made.presence = none := by
    refine Option.eq_none_iff_forall_not_mem.2 fun content hc => ?_
    have hc : made.presence = some content := hc
    obtain ⟨hm, -, -⟩ := ho.presence made List.mem_cons_self (by rw [hc]; rfl)
    rw [hm] at he
    cases he
  have hpending : d.pending = ⟨made.pushId, made.mutations⟩ :: (documentPushes pushes ++ unsent) := by
    rw [ho.documents, documentPushes, List.filterMap_cons, hpresence]
    rfl
  have hfind : (d.pending.find? fun p => p.pushId = result.pushId) =
      some ⟨made.pushId, made.mutations⟩ := by
    rw [hpending]
    exact List.find?_cons_of_pos (decide_eq_true hpush.symm)
  have hrestored : Entries.last? id result.restores = none := by
    refine Entries.last?_eq_none_iff.2 fun entry hentry => ?_
    obtain ⟨rejection, hr, rfl⟩ := List.mem_map.1 hentry
    exact hno rejection hr
  have hno : id ∉ result.rejected.map (·.recordId) := by
    intro hmem
    obtain ⟨rejection, hr, hid⟩ := List.mem_map.1 hmem
    exact hno rejection hr hid
  have hmem : id ∈ (made.mutations.map (·.recordId)).filter fun id =>
      !(result.rejected.map (·.recordId)).contains id := by
    refine List.mem_filter.2 ⟨List.mem_map.2 ⟨_, mem_of_lastEdit? he, rfl⟩, ?_⟩
    simpa using hno
  rw [get?_settle, hrestored, hfind, Option.getD_none, Replica.get?_foldl_restamp]
  exact if_pos hmem

end Draft

theorem agrees_congr {v : Option (String × Content)} {x y : Option Record}
    (h : x.map Record.value = y.map Record.value) : Agrees v x ↔ Agrees v y := by
  cases x <;> cases y <;> cases h' : v <;> simp_all [Agrees, Record.value, Record.sameValue]

/-- Under one id, a record that takes a stamp becomes another one exactly if a value of the other one
is its own value, too, and the stamp is that of the other one. -/
theorem rel_equal_restamp_iff {v : Option (String × Content)} {shown after : Option Record}
    {id : RecordId} {clock : Nat} (hshown : ∀ r, shown = some r → r.id = id)
    (hafter : ∀ r, after = some r → r.id = id) (hv : Agrees v after) :
    Option.Rel Record.Equal (shown.map fun r => { r with stamp := clock }) after ↔
      Agrees v shown ∧ ∀ r, after = some r → r.stamp = clock := by
  cases v with
  | none =>
    cases after with
    | some r => exact hv.elim
    | none =>
      cases shown with
      | none => exact ⟨fun _ => ⟨trivial, nofun⟩, fun _ => .none⟩
      | some s => exact ⟨nofun, fun h => h.1.elim⟩
  | some value =>
    cases after with
    | none => exact hv.elim
    | some r =>
      cases shown with
      | none => exact ⟨nofun, fun h => h.1.elim⟩
      | some s =>
        have hr : r.Same ⟨id, value.1, value.2, clock⟩ := hv
        refine ⟨fun h => ?_, fun ⟨hs, hstamp⟩ => .some ⟨?_, ?_, (hstamp r rfl).symm⟩⟩
        · cases h with
          | some h =>
            have hsame : s.Same r := h.same
            exact ⟨hsame.trans hr, fun r' hr' => Option.some.inj hr' ▸ h.stamp.symm⟩
        · exact (hshown s rfl).trans (hafter r rfl).symm
        · have hs : s.Same ⟨id, value.1, value.2, clock⟩ := hs
          exact hs.trans hr.symm

namespace Watch

/-- Under an id that an unsettled push writes, the copy shows what it should, in a record that lies
under its own id. -/
structure Sound (w : Watch) : Prop extends Faithful w where
  named : w.draft.Named

namespace Sound

variable {w : Watch}

theorem start (key : String) : Sound ⟨.start key, Table.empty⟩ :=
  ⟨faithful_start key, Draft.named_start key⟩

theorem push (h : w.Sound) (mutations : List Mutation) : (w.take (.push mutations)).Sound :=
  ⟨h.toFaithful.push mutations, h.named.push mutations⟩

theorem allot (h : w.Sound) : (w.take .presence).Sound := ⟨⟨h.numbered.allot, h.shows⟩, h.named⟩

theorem hydrate (h : w.Sound) (accepted : Accepted) :
    (w.take (.receive (.connected accepted))).Sound :=
  ⟨h.toFaithful.hydrate accepted, Draft.named_rebase _ _⟩

theorem patch (h : w.Sound) (patch : Patch) : (w.data (.patch patch)).Sound := by
  refine ⟨h.toFaithful.patch patch, ?_⟩
  change (w.draft.foldData (.patch patch)).1.Named
  obtain he | ⟨replica, event, he⟩ := Draft.foldData_patch_cases w.draft patch
  · rw [he]
    exact h.named
  · rw [he]
    exact Draft.named_rebase w.draft replica

variable {made : Push} {pushes : List Push} {unsent : List PendingPush} {result : PushResult}

theorem settle (h : w.Sound) (ho : Owes w.draft (made :: pushes) unsent)
    (ha : result.Answers made) : (w.data (.pushResult result)).Sound := by
  have hlast : ∀ id e, (w.draft.settle result).1.lastPending? id = some e →
      w.draft.lastPending? id = some e := fun id e he => by
    rw [(ho.settle ha.pushId).2 id, he, Option.some_or]
  exact ⟨h.toFaithful.settle_of hlast, h.named.settle ha hlast⟩

theorem batch {answers : Push → PushResult → Prop}
    (hanswers : ∀ push result, answers push result → result.Answers push) (h : w.Sound)
    {batch : List DataMessage} {answered : List Push}
    (ha : List.Forall₂ answers answered (settlements batch))
    (ho : Owes w.draft (answered ++ pushes) unsent) :
    (batch.foldl data w).Sound ∧ Owes (batch.foldl data w).draft pushes unsent := by
  induction batch generalizing w answered with
  | nil =>
    cases ha
    exact ⟨h, ho⟩
  | cons msg rest ih =>
    cases msg with
    | patch patch => exact ih (h.patch patch) ha (ho.patch patch)
    | pushResult result =>
      cases ha with
      | cons hfirst hrest =>
        have hfirst := hanswers _ _ hfirst
        exact ih (h.settle ho hfirst) hrest (ho.settle hfirst.pushId).1

theorem settled_iff (h : w.Sound) (ho : Owes w.draft (made :: pushes) unsent)
    (ha : result.Answers made) {id : RecordId} {e : Edit}
    (he : lastEdit? made.mutations id = some e)
    (hno : ∀ rejection ∈ result.rejected, rejection.recordId ≠ id)
    (hlast : (w.draft.settle result).1.lastPending? id = none) {after : Option Record}
    (hid : ∀ r, after = some r → r.id = id) (hagrees : Agrees e.value after) :
    Option.Rel Record.Equal ((w.draft.settle result).1.replica.get? id) after ↔
      (∀ current, w.restored.get? id = some current → Agrees e.value current) ∧
        ∀ r, after = some r → r.stamp = result.clock := by
  have hpending : w.draft.lastPending? id = some e := by
    rw [(ho.settle ha.pushId).2 id, hlast, he]
    rfl
  have hshows : (w.draft.replica.get? id).map Record.value =
      (w.restored.get? id).elim e.value (Option.map Record.value) :=
    (Replica.get?_values ..).symm.trans (h.shows id e hpending)
  have hrestored : Agrees e.value (w.draft.replica.get? id) ↔
      ∀ current, w.restored.get? id = some current → Agrees e.value current := by
    cases hr : w.restored.get? id with
    | some current =>
      rw [hr] at hshows
      refine (agrees_congr hshows).trans ?_
      exact ⟨fun h _ hc => Option.some.inj hc ▸ h, fun h => h current rfl⟩
    | none =>
      rw [hr] at hshows
      have hagrees : Agrees e.value (w.draft.replica.get? id) := by
        have hself := agrees_refl (w.draft.replica.get? id)
        rwa [hshows] at hself
      exact ⟨fun _ => nofun, fun _ => hagrees⟩
  rw [Draft.get?_settle_accepted ho ha.pushId he hno,
    rel_equal_restamp_iff (fun r hr => h.named id e hpending r hr) hid hagrees, hrestored]

end Sound

end Watch

end RoomSync
