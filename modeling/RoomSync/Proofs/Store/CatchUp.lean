import RoomSync.Proofs.Store.Apply

namespace RoomSync.Store

open Table

/-- Records lie under their own ids and are not stamped ahead of the clock, and no id is both a
record and a tombstone. -/
structure Sound (s : Store) : Prop where
  keyed : s.records.KeyedBy Record.id
  stamped : ∀ id r, s.records.get? id = some r → r.stamp ≤ s.clock
  disjoint : ∀ id t, s.tombstones.get? id = some t → s.records.get? id = none

theorem sound_empty (maxTombstones pruneBuffer : Nat) : (empty maxTombstones pruneBuffer).Sound :=
  ⟨nofun, nofun, nofun⟩

theorem Sound.ofSnapshot {s : Store} (h : s.Sound) (maxTombstones pruneBuffer : Nat) :
    (ofSnapshot s.snapshot maxTombstones pruneBuffer).Sound := by
  have hrecords : Record.table s.records.values = s.records := Record.table_values h.keyed
  refine ⟨?_, ?_, fun id t ht => nomatch ht⟩
  · change (Record.table s.records.values).KeyedBy _
    rw [hrecords]
    exact h.keyed
  · change ∀ id r, (Record.table s.records.values).get? id = some r → _
    rw [hrecords]
    exact h.stamped

theorem Follows.keyed {s next : Store} {changes : Changes} (hf : Follows s next changes)
    (h : s.records.KeyedBy Record.id) : next.records.KeyedBy Record.id := by
  intro id r hid
  rw [hf.get?_records] at hid
  rcases hc : changes.get? id with _ | _ | _
  · rw [hc] at hid
    exact h id r hid
  · rw [hc] at hid
    obtain rfl := Option.some.inj hid
    exact (hf.stamped id _ hc).1
  · rw [hc] at hid
    cases hid

theorem apply_keyed (s : Store) (schema : Schema) (mutations : List Mutation)
    (h : s.records.KeyedBy Record.id) :
    (s.apply schema mutations).1.records.KeyedBy Record.id := by
  by_cases hc : (s.apply schema mutations).2.changes = Table.empty
  · rw [apply_of_empty _ _ _ hc]
    exact h
  · exact (follows_apply _ _ _ hc).keyed h

theorem Follows.sound {s next : Store} {changes : Changes} (hf : Follows s next changes)
    (h : s.Sound) : next.Sound := by
  refine ⟨hf.keyed h.keyed, fun id r hid => ?_, fun id t ht => ?_⟩
  · rw [hf.get?_records] at hid
    rcases hc : changes.get? id with _ | _ | _
    · rw [hc] at hid
      have := h.stamped id r hid
      have := hf.clock
      omega
    · rw [hc] at hid
      obtain rfl := Option.some.inj hid
      exact Nat.le_of_eq (hf.stamped id _ hc).2
    · rw [hc] at hid
      cases hid
  · rw [hf.get?_records]
    obtain ⟨hc, -⟩ | ⟨hc, ht⟩ := hf.tombstones id t ht
    · rw [hc]
      rfl
    · rw [hc]
      exact h.disjoint id t ht

/-- What a store knows of an earlier state with the given clock and records: records with an old
stamp were there already, and records that are gone have left tombstones, down to the horizon. -/
structure Recalls (s : Store) (clock : Nat) (records : Table Record) : Prop where
  le : clock ≤ s.clock
  kept : ∀ id r, s.records.get? id = some r → r.stamp ≤ clock → records.get? id = some r
  gone : s.horizon ≤ clock → ∀ id, s.records.get? id = none → records.get? id ≠ none →
    ∃ t, s.tombstones.get? id = some t ∧ clock < t

theorem recalls_self (s : Store) : s.Recalls s.clock s.records :=
  ⟨Nat.le_refl _, fun _ _ h _ => h, fun _ _ h hne => absurd h hne⟩

theorem Follows.recalls {s next : Store} {changes : Changes} (hf : Follows s next changes)
    {clock : Nat} {records : Table Record} (h : s.Recalls clock records) :
    next.Recalls clock records := by
  have hle := h.le
  have hclock := hf.clock
  refine ⟨by omega, fun id r hid hst => ?_, fun hh id hn hne => ?_⟩
  · rw [hf.get?_records] at hid
    rcases hc : changes.get? id with _ | _ | _
    · rw [hc] at hid
      exact h.kept id r hid hst
    · rw [hc] at hid
      obtain rfl := Option.some.inj hid
      have := (hf.stamped id _ hc).2
      omega
    · rw [hc] at hid
      cases hid
  · have hhorizon := hf.horizon
    rw [hf.get?_records] at hn
    rcases hc : changes.get? id with _ | _ | _
    · rw [hc] at hn
      obtain ⟨t, ht, hlt⟩ := h.gone (by omega) id hn hne
      exact ⟨t, hf.survivors id t hc ht (by omega), hlt⟩
    · rw [hc] at hn
      cases hn
    · exact ⟨next.clock, hf.deletions id hc (by omega), by omega⟩

theorem get?_changesSince {s : Store} (h : s.records.KeyedBy Record.id) (since : Nat)
    (id : RecordId) :
    (s.changesSince since).get? id =
      if (s.tombstones.get? id).any (since < ·) then some .remove
      else ((s.records.get? id).filter fun r => since < r.stamp).map .put := by
  have hw : s.records.values.filter (fun r => since < r.stamp) =
      (s.records.filter fun _ r => since < r.stamp).values :=
    values_filter s.records (fun _ r => since < r.stamp) Record.id h
  have hk : (s.records.filter fun _ r => since < r.stamp).KeyedBy Record.id := fun key r hr => by
    rw [get?_filter] at hr
    exact h key r (Option.eq_some_of_filter_eq_some hr)
  rw [changesSince, Changes.get?_foldl_remove, hw, Changes.get?_foldl_put_values hk, get?_filter,
    get?_empty, Option.or_none]
  congr 1
  rw [mem_keys, get?_filter]
  cases s.tombstones.get? id with
  | none => simp
  | some t => by_cases ht : since < t <;> simp [Option.filter, ht]

theorem canCatchUp_iff (s : Store) (since : Nat) :
    s.canCatchUp since = true ↔ s.horizon ≤ since ∧ since ≤ s.clock := by
  rw [canCatchUp, Bool.and_eq_true, decide_eq_true_eq, decide_eq_true_eq]

/-- The changes since a clock that is not below the horizon, id by id: what they name is as it is
now, and what they do not name is as it was at any time after that clock. -/
theorem changesSince_spec {s : Store} (h : s.Sound) {clock since : Nat} {records : Table Record}
    (hp : s.Recalls clock records) (hle : since ≤ clock) (hc : s.canCatchUp since)
    (id : RecordId) :
    ((s.changesSince since).get? id).elim (records.get? id) Change.result = s.records.get? id := by
  have hh : s.horizon ≤ clock := Nat.le_trans ((s.canCatchUp_iff since).1 hc).1 hle
  rw [get?_changesSince h.keyed]
  cases hr : s.records.get? id with
  | none =>
    cases ht : s.tombstones.get? id with
    | none =>
      -- Nothing was deleted here, so there was nothing before.
      by_cases hn : records.get? id = none
      · simpa using hn
      · obtain ⟨t, ht', -⟩ := hp.gone hh id hr hn
        rw [ht] at ht'
        cases ht'
    | some t =>
      by_cases hlt : since < t
      · simp [hlt, Change.result]
      · by_cases hn : records.get? id = none
        · simp [hlt, hn]
        · obtain ⟨u, hu, hlu⟩ := hp.gone hh id hr hn
          rw [ht] at hu
          obtain rfl := Option.some.inj hu
          exact absurd (Nat.lt_of_le_of_lt hle hlu) hlt
  | some r =>
    have ht : s.tombstones.get? id = none := by
      cases ht : s.tombstones.get? id with
      | none => rfl
      | some t =>
        have := h.disjoint id t ht
        rw [hr] at this
        cases this
    by_cases hst : since < r.stamp
    · simp [ht, Option.filter, hst, Change.result]
    · have := hp.kept id r hr (Nat.le_trans (Nat.le_of_not_lt hst) hle)
      simp [ht, Option.filter, hst, this]

end RoomSync.Store
