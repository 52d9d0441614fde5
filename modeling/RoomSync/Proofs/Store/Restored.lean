import RoomSync.Proofs.Store.Run

namespace RoomSync.Store

open Table

/-- The stores that a run can get to, from an empty one or from any snapshot at all. -/
inductive Reachable : Store → Prop
  | empty (maxTombstones pruneBuffer : Nat) : Reachable (.empty maxTombstones pruneBuffer)
  | restored (snapshot : Snapshot) (maxTombstones pruneBuffer : Nat) :
      Reachable (.ofSnapshot snapshot maxTombstones pruneBuffer)
  | perform {s : Store} (h : Reachable s) (operation : Operation) :
      Reachable (s.perform operation)

theorem Reachable.run {s : Store} (h : Reachable s) (operations : List Operation) :
    Reachable (s.run operations) := by
  induction operations generalizing s with
  | nil => exact h
  | cons operation rest ih => exact ih (h.perform operation)

/-- What does not depend on the snapshot that a store was opened with: records lie under their own
ids, and nothing was deleted in the future. -/
structure Plain (s : Store) : Prop where
  keyed : s.records.KeyedBy Record.id
  deleted : ∀ id t, s.tombstones.get? id = some t → t ≤ s.clock

theorem Follows.plain {s next : Store} {changes : Changes} (hf : Follows s next changes)
    (h : s.Plain) : next.Plain := by
  refine ⟨hf.keyed h.keyed, fun id t ht => ?_⟩
  obtain ⟨-, rfl⟩ | ⟨-, hold⟩ := hf.tombstones id t ht
  · exact Nat.le_refl _
  · have := h.deleted id t hold
    have := hf.clock
    omega

theorem plain_ofSnapshot (snapshot : Snapshot) (maxTombstones pruneBuffer : Nat) :
    (ofSnapshot snapshot maxTombstones pruneBuffer).Plain :=
  ⟨Record.keyed_table snapshot.records, nofun⟩

theorem Reachable.plain {s : Store} (h : Reachable s) : s.Plain := by
  induction h with
  | empty maxTombstones pruneBuffer => exact ⟨nofun, nofun⟩
  | restored snapshot maxTombstones pruneBuffer => exact plain_ofSnapshot ..
  | @perform s _ operation ih =>
    obtain heq | ⟨changes, hf⟩ := s.perform_cases operation
    · exact heq.symm ▸ ih
    · exact hf.plain ih

/-- Two stores that cannot be told apart by what they hold. They may have forgotten different
deletions: the ones that both must know, above both horizons, they know alike. -/
structure Twins (s r : Store) : Prop where
  clock : r.clock = s.clock
  records : r.records = s.records
  tombstones : ∀ id t, s.horizon < t → r.horizon < t →
    (s.tombstones.get? id = some t ↔ r.tombstones.get? id = some t)

theorem Twins.symm {s r : Store} (h : Twins s r) : Twins r s :=
  ⟨h.clock.symm, h.records.symm, fun id t hr hs => (h.tombstones id t hs hr).symm⟩

theorem Plain.twins {s : Store} (h : s.Plain) (maxTombstones pruneBuffer : Nat) :
    Twins s (ofSnapshot s.snapshot maxTombstones pruneBuffer) where
  clock := rfl
  records := Record.table_values h.keyed
  tombstones id t _ hlt := by
    refine ⟨fun ht => absurd (h.deleted id t ht) (Nat.not_le.2 hlt), fun ht => ?_⟩
    cases ht

theorem Twins.tombstones_of_follows {s r s' r' : Store} {changes : Changes} (h : Twins s r)
    (hs : Follows s s' changes) (hr : Follows r r' changes) {id : RecordId} {t : Nat}
    (hlt : s'.horizon < t) (hlt' : r'.horizon < t) (ht : s'.tombstones.get? id = some t) :
    r'.tombstones.get? id = some t := by
  obtain ⟨hc, rfl⟩ | ⟨hc, hold⟩ := hs.tombstones id t ht
  · have hclock : r'.clock = s'.clock := by rw [hr.clock, hs.clock, h.clock]
    rw [← hclock] at hlt' ⊢
    exact hr.deletions id hc hlt'
  · have hknown := (h.tombstones id t (Nat.lt_of_le_of_lt hs.horizon hlt)
      (Nat.lt_of_le_of_lt hr.horizon hlt')).1 hold
    exact hr.survivors id t hc hknown hlt'

theorem Twins.follows {s r s' r' : Store} {changes : Changes} (h : Twins s r)
    (hs : Follows s s' changes) (hr : Follows r r' changes) : Twins s' r' where
  clock := by rw [hr.clock, hs.clock, h.clock]
  records := by rw [hr.records, hs.records, h.records]
  tombstones _ _ hlt hlt' :=
    ⟨h.tombstones_of_follows hs hr hlt hlt', h.symm.tombstones_of_follows hr hs hlt' hlt⟩

theorem Twins.apply_changes {s r : Store} (h : Twins s r) (schema : Schema)
    (mutations : List Mutation) :
    (r.apply schema mutations).2.changes = (s.apply schema mutations).2.changes := by
  apply Table.ext
  intro id
  rw [Store.apply_changes, Store.apply_changes, h.clock, h.records]

theorem Twins.apply {s r : Store} (h : Twins s r) (schema : Schema) (mutations : List Mutation) :
    Twins (s.apply schema mutations).1 (r.apply schema mutations).1 := by
  have hchanges := h.apply_changes schema mutations
  by_cases hc : (s.apply schema mutations).2.changes = Table.empty
  · rw [apply_of_empty s _ _ hc, apply_of_empty r _ _ (hchanges.trans hc)]
    exact h
  · exact h.follows (follows_apply s _ _ hc)
      (hchanges ▸ follows_apply r schema mutations (hchanges ▸ hc))

theorem Twins.outcome {s r : Store} (h : Twins s r) (schema : Schema)
    (mutations : List Mutation) :
    (r.apply schema mutations).2 = (s.apply schema mutations).2 := by
  have hnext := h.apply schema mutations
  calc (r.apply schema mutations).2
      = ⟨(r.apply schema mutations).1.clock, (r.apply schema mutations).2.changes,
          rejections schema mutations (r.apply schema mutations).1.records⟩ := rfl
    _ = ⟨(s.apply schema mutations).1.clock, (s.apply schema mutations).2.changes,
          rejections schema mutations (s.apply schema mutations).1.records⟩ := by
        rw [hnext.clock, hnext.records, h.apply_changes]
    _ = (s.apply schema mutations).2 := rfl

theorem Twins.perform {s r : Store} (h : Twins s r) (operation : Operation) :
    Twins (s.perform operation) (r.perform operation) := by
  cases operation with
  | apply schema mutations => exact h.apply schema mutations
  | advance => exact h.follows s.follows_advance r.follows_advance

theorem Twins.run {s r : Store} (h : Twins s r) (operations : List Operation) :
    Twins (s.run operations) (r.run operations) := by
  induction operations generalizing s r with
  | nil => exact h
  | cons operation rest ih => exact ih (h.perform operation)

theorem Twins.changesSince {s r : Store} (h : Twins s r)
    (hkeyed : s.records.KeyedBy Record.id) {since : Nat} (hs : s.horizon ≤ since)
    (hr : r.horizon ≤ since) : r.changesSince since = s.changesSince since := by
  apply Table.ext
  intro id
  have hgone : (r.tombstones.get? id).any (since < ·) = (s.tombstones.get? id).any (since < ·) := by
    rw [Bool.eq_iff_iff, Option.any_eq_true, Option.any_eq_true]
    refine exists_congr fun t => and_congr_left fun hlt => ?_
    have hlt := of_decide_eq_true hlt
    exact (h.tombstones id t (Nat.lt_of_le_of_lt hs hlt) (Nat.lt_of_le_of_lt hr hlt)).symm
  rw [get?_changesSince (h.records ▸ hkeyed), get?_changesSince hkeyed, hgone, h.records]

theorem horizon_le_run (s : Store) (operations : List Operation) :
    s.horizon ≤ (s.run operations).horizon :=
  run_keeps (P := fun next => s.horizon ≤ next.horizon)
    (fun _ _ _ hf hle => Nat.le_trans hle hf.horizon) (Nat.le_refl _) operations

/-- A restored store behaves like the original, whatever their limits are: after any operations on
both, and so after each of them, the next batch has one outcome. The restored store never claims to
know what was before it. -/
theorem restored_run {origin : Store} (horigin : Reachable origin)
    (maxTombstones pruneBuffer : Nat) (operations : List Operation) :
    let s := origin.run operations
    let r := (ofSnapshot origin.snapshot maxTombstones pruneBuffer).run operations
    r.clock = s.clock ∧ r.records = s.records ∧
      (∀ schema mutations, (r.apply schema mutations).2 = (s.apply schema mutations).2) ∧
      (∀ since, r.canCatchUp since = true → origin.clock ≤ since) ∧
      ∀ since, s.canCatchUp since = true → r.canCatchUp since = true →
        r.changesSince since = s.changesSince since := by
  intro s r
  have htwins : Twins s r := (horigin.plain.twins maxTombstones pruneBuffer).run operations
  have hplain : s.Plain := run_keeps (fun _ _ _ hf => hf.plain) horigin.plain operations
  refine ⟨htwins.clock, htwins.records, htwins.outcome, fun since hr => ?_, fun since hs hr => ?_⟩
  · rw [canCatchUp_iff] at hr
    exact Nat.le_trans
      (horizon_le_run (ofSnapshot origin.snapshot maxTombstones pruneBuffer) operations) hr.1
  · rw [canCatchUp_iff] at hs hr
    exact htwins.changesSince hplain.keyed hs.1 hr.1

/-- Where the original keeps two tombstones and the restored store nine: the first of three deletions
is forgotten by the one and not by the other, and from its clock on both tell the same. -/
theorem restored_run_pruned :
    let schema := (Schema.base 1).withType (.document "note")
    let write : RecordId → Mutation := fun id => ⟨id, .upsert "note" (.object [])⟩
    let delete : RecordId → Mutation := fun id => ⟨id, .delete⟩
    let origin := (Store.empty 2 0).run
      [.apply schema [write "a", write "b", write "c", write "d"], .apply schema [delete "a"]]
    let operations : List Operation :=
      [.advance, .apply schema [delete "b"], .apply schema [write "a", delete "c", write ""],
        .apply schema [delete "d"]]
    let s := origin.run operations
    let r := (ofSnapshot origin.snapshot 9 0).run operations
    origin.clock = 2 ∧ s.clock = 6 ∧ s.tombstones.keys = ["c", "d"] ∧
      r.tombstones.keys = ["b", "c", "d"] ∧ s.canCatchUp 2 = false ∧ r.canCatchUp 2 = true ∧
      s.canCatchUp 4 = true ∧ (s.changesSince 4).keys = ["a", "c", "d"] ∧
      r.clock = s.clock ∧ r.records = s.records ∧ r.changesSince 4 = s.changesSince 4 ∧
      (r.apply schema [write ""]).2 = (s.apply schema [write ""]).2 := by
  intro schema write delete origin operations s r
  have horigin : Reachable origin := (Reachable.empty 2 0).run _
  let crowd := (origin.run (operations.take 3)).stampedBatch schema [delete "d"]
  have hs : s = { crowd with
      tombstones := crowd.tombstones.filter fun _ clock => 4 < clock
      horizon := max crowd.horizon 4 } :=
    (apply_of_nonempty _ schema _ (by decide +kernel)).trans
      (prune_of_sorted (by decide +kernel) (by decide +kernel) (by decide +kernel))
  have hknown : s.canCatchUp 4 = true := by
    rw [hs]
    decide +kernel
  obtain ⟨hclock, hrecords, houtcome, -, hchanges⟩ := restored_run horigin 9 0 operations
  refine ⟨by decide +kernel, ?_, ?_, by decide +kernel, ?_, by decide +kernel, hknown, ?_, hclock,
    hrecords, hchanges 4 hknown (by decide +kernel), houtcome schema [write ""]⟩
  all_goals
    rw [hs]
    decide +kernel

end RoomSync.Store
