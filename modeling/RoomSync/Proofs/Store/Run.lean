import RoomSync.Proofs.Store.CatchUp

namespace RoomSync.Store

open Table

inductive Operation where
  | apply (schema : Schema) (mutations : List Mutation)
  | advance

def perform (s : Store) : Operation → Store
  | .apply schema mutations => (s.apply schema mutations).1
  | .advance => s.advance

def run (s : Store) (operations : List Operation) : Store := operations.foldl perform s

/-- The stores that a run may start from: an empty one, and one that is restored from what an
earlier run left, under any limits. -/
inductive Founded : Store → Prop
  | empty (maxTombstones pruneBuffer : Nat) : Founded (.empty maxTombstones pruneBuffer)
  | restored {start : Store} (h : Founded start) (operations : List Operation)
      (maxTombstones pruneBuffer : Nat) :
      Founded (.ofSnapshot (start.run operations).snapshot maxTombstones pruneBuffer)

theorem perform_cases (s : Store) (operation : Operation) :
    s.perform operation = s ∨ ∃ changes, Follows s (s.perform operation) changes := by
  cases operation with
  | apply schema mutations =>
    by_cases hc : (s.apply schema mutations).2.changes = Table.empty
    · exact .inl (s.apply_of_empty schema mutations hc)
    · exact .inr ⟨_, s.follows_apply schema mutations hc⟩
  | advance => exact .inr ⟨_, s.follows_advance⟩

theorem run_keeps {P : Store → Prop}
    (hstep : ∀ s next changes, Follows s next changes → P s → P next) {s : Store} (h : P s)
    (operations : List Operation) : P (s.run operations) := by
  induction operations generalizing s with
  | nil => exact h
  | cons operation rest ih =>
    refine ih (s := s.perform operation) ?_
    obtain heq | ⟨changes, hf⟩ := s.perform_cases operation
    · exact heq.symm ▸ h
    · exact hstep s _ changes hf h

theorem Sound.run {s : Store} (h : s.Sound) (operations : List Operation) :
    (s.run operations).Sound :=
  run_keeps (fun _ _ _ hf => hf.sound) h operations

theorem Recalls.run {s : Store} {clock : Nat} {records : Table Record}
    (h : s.Recalls clock records) (operations : List Operation) :
    (s.run operations).Recalls clock records :=
  run_keeps (P := fun s => s.Recalls clock records) (fun _ _ _ hf => hf.recalls) h operations

theorem Founded.sound {s : Store} (h : Founded s) : s.Sound := by
  induction h with
  | empty maxTombstones pruneBuffer => exact sound_empty maxTombstones pruneBuffer
  | restored _ operations maxTombstones pruneBuffer ih =>
    exact (ih.run operations).ofSnapshot maxTombstones pruneBuffer

/-- Catching up is complete, stamps included: across deletions and new beginnings under one id, moves
of the clock that no record sees, and tombstones that were dropped. -/
theorem applyTo_changesSince {start : Store} (hstart : Founded start)
    (before after : List Operation)
    (hknown : ((start.run before).run after).canCatchUp (start.run before).clock = true) :
    (((start.run before).run after).changesSince (start.run before).clock).applyTo
        (start.run before).records =
      ((start.run before).run after).records := by
  have hsound : ((start.run before).run after).Sound := (hstart.sound.run before).run after
  have hrecalls : ((start.run before).run after).Recalls (start.run before).clock
      (start.run before).records := (start.run before).recalls_self.run after
  apply Table.ext
  intro id
  rw [Changes.get?_applyTo]
  exact changesSince_spec hsound hrecalls (Nat.le_refl _) hknown id

/-- Three notes are restored where one tombstone is kept. One note is deleted, and from there on the
clock moves for nothing, a second note goes and drops the tombstone of the first one, and the first
one is written anew. -/
theorem applyTo_changesSince_after_pruning :
    let schema := (Schema.base 1).withType (.document "note")
    let write : RecordId → Mutation := fun id => ⟨id, .upsert "note" (.object [])⟩
    let delete : RecordId → Mutation := fun id => ⟨id, .delete⟩
    let filled := (Store.empty 9 9).run [.apply schema [write "a", write "b", write "c"]]
    let earlier := (ofSnapshot filled.snapshot 1 0).run [.apply schema [delete "a"]]
    let later := earlier.run
      [.advance, .apply schema [delete "b", write "d"], .apply schema [write "a"]]
    earlier.clock = 2 ∧ later.clock = 5 ∧ later.tombstones.keys = ["b"] ∧
      later.canCatchUp 2 = true ∧ later.canCatchUp 1 = false ∧
      (later.changesSince 2).keys = ["a", "b", "d"] ∧
      (later.changesSince earlier.clock).applyTo earlier.records = later.records := by
  intro schema write delete filled earlier later
  have hstart : Founded (ofSnapshot filled.snapshot 1 0) :=
    (Founded.empty 9 9).restored [.apply schema [write "a", write "b", write "c"]] 1 0
  let crowded := earlier.advance.stampedBatch schema [delete "b", write "d"]
  let pruned : Store := { crowded with
    tombstones := crowded.tombstones.filter fun _ clock => 2 < clock
    horizon := max crowded.horizon 2 }
  have hpruned : (earlier.advance.apply schema [delete "b", write "d"]).1 = pruned :=
    (earlier.advance.apply_of_nonempty schema _ (by decide +kernel)).trans
      (prune_of_sorted (by decide +kernel) (by decide +kernel) (by decide +kernel))
  have hlater : later = (pruned.apply schema [write "a"]).1 := by
    change ((earlier.advance.apply schema [delete "b", write "d"]).1.apply schema [write "a"]).1 = _
    rw [hpruned]
  have hclock : earlier.clock = 2 := by decide +kernel
  have hknown : later.canCatchUp 2 = true := by
    rw [hlater]
    decide +kernel
  have hall := applyTo_changesSince hstart [.apply schema [delete "a"]]
    [.advance, .apply schema [delete "b", write "d"], .apply schema [write "a"]]
    ((congrArg later.canCatchUp hclock).trans hknown)
  refine ⟨hclock, ?_, ?_, hknown, ?_, ?_, hall⟩ <;> rw [hlater] <;> decide +kernel

end RoomSync.Store
