import RoomSync.Proofs.Draft.Coalescing

namespace RoomSync

open Table

def departures : Nat → List RecordId → List Patch
  | _, [] => []
  | clock, id :: ids =>
    ⟨clock, clock + 1, Table.empty.insert id .remove⟩ :: departures (clock + 1) ids

theorem mem_departures {clock : Nat} {ids : List RecordId} {p : Patch}
    (h : p ∈ departures clock ids) : p.fromClock < p.toClock := by
  induction ids generalizing clock with
  | nil => cases h
  | cons id ids ih =>
    obtain rfl | h := List.mem_cons.1 h
    · exact Nat.lt_succ_self _
    · exact ih h

theorem chained_departures (clock : Nat) (ids : List RecordId) :
    Chained ((departures clock ids).map .patch) := by
  induction ids generalizing clock with
  | nil => exact .nil
  | cons id ids ih =>
    cases ids with
    | nil => exact List.isChain_singleton _
    | cons id' ids => exact List.isChain_cons_cons.2 ⟨rfl, ih (clock + 1)⟩

theorem foldl_absorb_departures (first clock : Nat) (changes : Changes) (ids : List RecordId) :
    (departures clock ids).foldl Patch.absorb ⟨first, clock, changes⟩ =
      ⟨first, clock + ids.length, ids.foldl Changes.remove changes⟩ := by
  induction ids generalizing clock changes with
  | nil => rfl
  | cons id ids ih =>
    have hunion : changes.union (Table.empty.insert id .remove) = changes.remove id :=
      Table.ext fun k => by
        rw [get?_union, get?_insert, Changes.get?_remove]
        by_cases hk : k = id <;> simp [hk]
    rw [departures, List.foldl_cons, Patch.absorb, hunion, ih, List.length_cons, List.foldl_cons,
      Nat.add_assoc, Nat.add_comm 1]

theorem coalesce_departures (clock : Nat) (ids : List RecordId) :
    coalesce ((departures clock ids).map .patch) =
      if ids = [] then []
      else [.patch ⟨clock, clock + ids.length, ids.foldl Changes.remove Table.empty⟩] := by
  cases ids with
  | nil => rfl
  | cons id ids =>
    have hrun := @coalesce_run ⟨clock, clock + 1, Table.empty.insert id .remove⟩
      (departures (clock + 1) ids) [] rfl
    rw [List.append_nil, foldl_absorb_departures] at hrun
    rw [if_neg (List.cons_ne_nil id ids), departures, hrun, List.length_cons, Nat.add_assoc,
      Nat.add_comm 1]
    rfl

theorem coalesce_departures_perm (clock : Nat) {ids ids' : List RecordId} (h : ids.Perm ids') :
    coalesce ((departures clock ids).map .patch) =
      coalesce ((departures clock ids').map .patch) := by
  have hchanges : ids.foldl Changes.remove Table.empty = ids'.foldl Changes.remove Table.empty :=
    Table.ext fun id => by
      simp only [Changes.get?_foldl_remove, h.mem_iff]
  simp only [coalesce_departures, hchanges, h.length_eq, ← List.isEmpty_iff, h.isEmpty_eq]

theorem coalesce_append_congr (front : List DataMessage) {msgs msgs' : List DataMessage}
    (h : coalesce msgs = coalesce msgs') :
    coalesce (front ++ msgs) = coalesce (front ++ msgs') := by
  rw [((merges_coalesce msgs).1.append_left front).coalesce_eq, h,
    ← ((merges_coalesce msgs').1.append_left front).coalesce_eq]

namespace Draft

variable {d : Draft} {clock : Nat}

theorem settlements_departures (clock : Nat) (ids : List RecordId) :
    settlements ((departures clock ids).map .patch) = [] := by
  rw [settlements, List.filterMap_map]
  exact List.filterMap_eq_nil_iff.2 fun _ _ => rfl

theorem pending_departures (d : Draft) (clock : Nat) (ids : List RecordId) :
    (d.foldBatch (coalesce ((departures clock ids).map .patch))).1.pending = d.pending := by
  rw [pending_foldBatch_settlements, settlements_coalesce, settlements_departures]
  exact List.filter_eq_self.2 fun _ _ => rfl

theorem agrees_departures (h : d.replica.clock ≤ clock) (ids : List RecordId) :
    Agrees (d.pending = []) (d.foldBatch ((departures clock ids).map .patch)).1
      (d.foldBatch (coalesce ((departures clock ids).map .patch))).1 := by
  cases ids with
  | nil => exact .refl d
  | cons id ids =>
    have hrun := @coalesce_run ⟨clock, clock + 1, Table.empty.insert id .remove⟩
      (departures (clock + 1) ids) [] rfl
    rw [List.append_nil] at hrun
    rw [departures, hrun]
    refine agrees_run (chained_departures clock (id :: ids)) (fun p hp => ?_) (.inl h)
    obtain ⟨q, hq, he⟩ := List.mem_map.1 hp
    obtain rfl := DataMessage.patch.inj he
    exact @mem_departures clock (id :: ids) q hq

theorem agrees_held_departures {held : List DataMessage}
    (h : (d.foldBatch held).1.replica.clock ≤ clock) (ids : List RecordId) :
    let patches := (departures clock ids).map .patch
    let behind := ((d.foldBatch held).1.foldBatch (coalesce patches)).1
    Agrees (behind.pending = []) (d.foldBatch (held ++ patches)).1 behind := by
  intro patches behind
  rw [foldBatch_append, pending_departures]
  exact agrees_departures h ids

theorem agrees_first_departure (h : d.replica.clock ≤ clock) (id : RecordId) (ids : List RecordId) :
    let first : DataMessage := .patch ⟨clock, clock + 1, Table.empty.insert id .remove⟩
    let behind := (d.foldBatch (coalesce ((departures clock (id :: ids)).map .patch))).1
    Agrees (behind.pending = []) ((d.foldBatch [first]).1.foldBatch
      (coalesce ((departures (clock + 1) ids).map .patch))).1 behind := by
  intro first behind
  have hpending : (d.foldBatch [first]).1.pending = d.pending := d.pending_departures clock [id]
  have hfirst : (d.foldBatch [first]).1.replica.clock ≤ clock + 1 := by
    by_cases hmade : clock ≤ d.replica.clock ∧ d.replica.clock < clock + 1
    · change (d.foldData first).1.replica.clock ≤ clock + 1
      rw [foldData_patch hmade.1 hmade.2, clock_rebase]
    · change (d.foldData first).1.replica.clock ≤ clock + 1
      rw [foldData_patch_dropped hmade]
      exact Nat.le_succ_of_le h
  have hrest := (agrees_departures hfirst ids).symm
  rw [hpending, ← foldBatch_append] at hrest
  rw [pending_departures]
  exact hrest.trans (agrees_departures h (id :: ids))

end Draft

end RoomSync
