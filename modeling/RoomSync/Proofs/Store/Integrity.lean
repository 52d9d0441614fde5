import Mathlib.Data.List.Sort
import Mathlib.Logic.Relation
import RoomSync.Proofs.Store.Run

namespace RoomSync.Store

open Table

/-- One operation under a schema, or a restart under any limits. -/
inductive Move (schema : Schema) : Store → Store → Prop
  | apply (s : Store) (mutations : List Mutation) : Move schema s (s.apply schema mutations).1
  | advance (s : Store) : Move schema s s.advance
  | restart (s : Store) (maxTombstones pruneBuffer : Nat) :
      Move schema s (.ofSnapshot s.snapshot maxTombstones pruneBuffer)

/-- A store as it was served under a schema since it was empty. -/
structure Intact (schema : Schema) (s : Store) : Prop extends s.Sound where
  named : ∀ id r, s.records.get? id = some r → id ≠ ""
  valid : ∀ id r, s.records.get? id = some r →
    schema.checkDocument id r.typeName r.content = .ok ()
  begun : ∀ id r, s.records.get? id = some r → 1 ≤ r.stamp
  remembered : ∀ id t, s.tombstones.get? id = some t → s.horizon < t ∧ t ≤ s.clock
  horizon : s.horizon ≤ s.clock
  few : s.tombstones.size ≤ s.maxTombstones

theorem length_filter_lt_le {clocks : List Nat} (h : clocks.Pairwise (· ≤ ·)) {i cutoff : Nat}
    (hi : clocks[i]? = some cutoff) :
    (clocks.filter (cutoff < ·)).length ≤ clocks.length - (i + 1) := by
  induction clocks generalizing i with
  | nil => cases hi
  | cons clock rest ih =>
    obtain ⟨hle, hrest⟩ := List.pairwise_cons.1 h
    cases i with
    | zero =>
      obtain rfl := Option.some.inj hi
      rw [List.filter_cons_of_neg (by simp)]
      exact List.length_filter_le ..
    | succ i =>
      have hclock : clock ≤ cutoff := hle cutoff (List.mem_of_getElem? hi)
      rw [List.filter_cons_of_neg (by simpa using hclock), List.length_cons]
      have := ih hrest hi
      omega

def clocks (s : Store) : List Nat := s.tombstones.values.mergeSort

theorem length_clocks (s : Store) : s.clocks.length = s.tombstones.size := by
  rw [clocks, List.length_mergeSort, Table.values, List.length_map, Table.size]

theorem size_filter_lt_le (s : Store) {i cutoff : Nat} (hi : s.clocks[i]? = some cutoff) :
    (s.tombstones.filter fun _ clock => cutoff < clock).size ≤ s.tombstones.size - (i + 1) := by
  have hperm : (s.clocks.filter (cutoff < ·)).Perm (s.tombstones.values.filter (cutoff < ·)) :=
    (List.mergeSort_perm ..).filter _
  calc (s.tombstones.filter fun _ clock => cutoff < clock).size
      = (s.tombstones.values.filter (cutoff < ·)).length := by
        simp only [Table.size, Table.filter, Table.values, List.filter_map, List.length_map]
        rfl
    _ = (s.clocks.filter (cutoff < ·)).length := hperm.length_eq.symm
    _ ≤ s.clocks.length - (i + 1) := length_filter_lt_le (List.pairwise_mergeSort' ..) hi
    _ = s.tombstones.size - (i + 1) := by rw [length_clocks]

theorem cutoff_place {s : Store} (h : s.maxTombstones < s.tombstones.size) :
    0 < min s.excess s.clocks.length ∧ min s.excess s.clocks.length - 1 < s.clocks.length := by
  rw [length_clocks, excess]
  omega

theorem prune_cases (s : Store) :
    (s.tombstones.size ≤ s.maxTombstones ∧ s.prune = s) ∨
      ∃ cutoff ∈ s.tombstones.values,
        (s.tombstones.filter fun _ clock => cutoff < clock).size ≤ s.maxTombstones ∧
        s.prune = { s with
          tombstones := s.tombstones.filter fun _ clock => cutoff < clock
          horizon := max s.horizon cutoff } := by
  by_cases hfew : s.tombstones.size ≤ s.maxTombstones
  · exact .inl ⟨hfew, by rw [prune, if_pos hfew]⟩
  · right
    obtain ⟨hpos, hlt⟩ := cutoff_place (Nat.lt_of_not_le hfew)
    have hplace := List.getElem?_eq_getElem hlt
    have hcutoff : s.cutoff? = some s.clocks[min s.excess s.clocks.length - 1] := hplace
    refine ⟨_, List.mem_mergeSort.1 (List.getElem_mem hlt), ?_, ?_⟩
    · refine (s.size_filter_lt_le hplace).trans ?_
      rw [length_clocks, excess] at hpos ⊢
      omega
    · rw [prune, if_neg hfew, hcutoff]

theorem prune_maxTombstones (s : Store) : s.prune.maxTombstones = s.maxTombstones := by
  obtain ⟨-, h⟩ | ⟨cutoff, -, -, h⟩ := s.prune_cases <;> rw [h]

theorem prune_few (s : Store) : s.prune.tombstones.size ≤ s.maxTombstones := by
  obtain ⟨hfew, h⟩ | ⟨cutoff, -, hfew, h⟩ := s.prune_cases
  · rw [h]
    exact hfew
  · rw [h]
    exact hfew

theorem prune_horizon_le {s : Store} {clock : Nat} (hhorizon : s.horizon ≤ clock)
    (h : ∀ id t, s.tombstones.get? id = some t → t ≤ clock) : s.prune.horizon ≤ clock := by
  obtain ⟨-, hs⟩ | ⟨cutoff, hcutoff, -, hs⟩ := s.prune_cases
  · rw [hs]
    exact hhorizon
  · rw [hs]
    obtain ⟨id, ht⟩ := mem_values.1 hcutoff
    exact Nat.max_le.2 ⟨hhorizon, h id cutoff ht⟩

theorem prune_remembered {s : Store}
    (h : ∀ id t, s.tombstones.get? id = some t → s.horizon < t) {id : RecordId} {t : Nat}
    (ht : s.prune.tombstones.get? id = some t) :
    s.tombstones.get? id = some t ∧ s.prune.horizon < t := by
  obtain ⟨-, hs⟩ | ⟨cutoff, -, -, hs⟩ := s.prune_cases
  · rw [hs] at ht ⊢
    exact ⟨ht, h id t ht⟩
  · rw [hs] at ht ⊢
    rw [get?_filter] at ht
    obtain ⟨hold, habove⟩ := Option.filter_eq_some_iff.1 ht
    exact ⟨hold, Nat.max_lt.2 ⟨h id t hold, of_decide_eq_true habove⟩⟩

section Batch

variable (s : Store) (schema : Schema) (mutations : List Mutation)

theorem maxTombstones_foldl_write (clock : Nat) (state : Store × Changes)
    (entries : List (RecordId × Edit)) :
    (entries.foldl (write clock) state).1.maxTombstones = state.1.maxTombstones := by
  induction entries generalizing state with
  | nil => rfl
  | cons e rest ih =>
    rw [List.foldl_cons, ih]
    obtain ⟨s, changes⟩ := state
    obtain ⟨id, edit⟩ := e
    cases edit <;> simp only [write] <;> split <;> rfl

theorem stampedBatch_maxTombstones :
    (s.stampedBatch schema mutations).maxTombstones = s.maxTombstones :=
  maxTombstones_foldl_write ..

theorem stampedBatch_horizon : (s.stampedBatch schema mutations).horizon = s.horizon :=
  horizon_foldl_write ..

theorem apply_maxTombstones : (s.apply schema mutations).1.maxTombstones = s.maxTombstones := by
  by_cases hc : (s.apply schema mutations).2.changes = Table.empty
  · rw [apply_of_empty _ _ _ hc]
  · rw [apply_of_nonempty _ _ _ hc, prune_maxTombstones, stampedBatch_maxTombstones]

theorem stampedBatch_tombstones {id : RecordId} {t : Nat}
    (ht : (s.stampedBatch schema mutations).tombstones.get? id = some t) :
    s.tombstones.get? id = some t ∨ t = s.clock + 1 := by
  have hw := (s.written_batch schema mutations id).tombstones
  change (s.writtenBatch schema mutations).1.tombstones.get? id = some t at ht
  rw [hw] at ht
  rcases he : ((lastEdits schema mutations).get? id).bind fun e =>
      effect? s.records (s.clock + 1) (id, e) with _ | _ | _
  · simp only [he] at ht
    exact .inl ht
  · simp only [he] at ht
    cases ht
  · simp only [he] at ht
    exact .inr (Option.some.inj ht).symm

end Batch

theorem checkDocument_named {schema : Schema} {id : RecordId} {typeName : String} {content : Content}
    (h : schema.checkDocument id typeName content = .ok ()) : id ≠ "" := by
  rintro rfl
  cases h

theorem Follows.record_cases {s next : Store} {changes : Changes} (hf : Follows s next changes)
    {id : RecordId} {r : Record} (hr : next.records.get? id = some r) :
    s.records.get? id = some r ∨ changes.get? id = some (.put r) := by
  rw [hf.get?_records] at hr
  rcases hc : changes.get? id with _ | _ | _ <;> rw [hc] at hr
  · exact .inl hr
  · exact .inr (congrArg (some ∘ Change.put) (Option.some.inj hr))
  · cases hr

namespace Intact

variable {schema : Schema} {s : Store}

theorem empty (schema : Schema) (maxTombstones pruneBuffer : Nat) :
    Intact schema (.empty maxTombstones pruneBuffer) where
  toSound := sound_empty maxTombstones pruneBuffer
  named := nofun
  valid := nofun
  begun := nofun
  remembered := nofun
  horizon := Nat.le_refl _
  few := Nat.zero_le _

theorem restart (h : Intact schema s) (maxTombstones pruneBuffer : Nat) :
    Intact schema (.ofSnapshot s.snapshot maxTombstones pruneBuffer) := by
  have hrecords : (ofSnapshot s.snapshot maxTombstones pruneBuffer).records = s.records :=
    Record.table_values h.keyed
  exact {
    toSound := h.toSound.ofSnapshot maxTombstones pruneBuffer
    named := hrecords ▸ h.named
    valid := hrecords ▸ h.valid
    begun := hrecords ▸ h.begun
    remembered := nofun
    horizon := Nat.le_refl _
    few := Nat.zero_le _ }

theorem advance (h : Intact schema s) : Intact schema s.advance where
  toSound := s.follows_advance.sound h.toSound
  named := h.named
  valid := h.valid
  begun := h.begun
  remembered id t ht := ⟨(h.remembered id t ht).1, Nat.le_succ_of_le (h.remembered id t ht).2⟩
  horizon := Nat.le_succ_of_le h.horizon
  few := h.few

theorem apply (h : Intact schema s) (mutations : List Mutation) :
    Intact schema (s.apply schema mutations).1 := by
  by_cases hc : (s.apply schema mutations).2.changes = Table.empty
  · rw [apply_of_empty _ _ _ hc]
    exact h
  have hf := s.follows_apply schema mutations hc
  have hrecord : ∀ id r, (s.apply schema mutations).1.records.get? id = some r →
      s.records.get? id = some r ∨
        schema.checkDocument id r.typeName r.content = .ok () ∧ r.stamp = s.clock + 1 :=
    fun id r hr => (hf.record_cases hr).imp_right fun hput =>
      ⟨s.apply_valid schema mutations hput, (hf.stamped id r hput).2.trans hf.clock⟩
  -- Of the tombstones, the crowd before pruning has to be looked at.
  have hcrowd : ∀ id t, (s.stampedBatch schema mutations).tombstones.get? id = some t →
      (s.stampedBatch schema mutations).horizon < t ∧ t ≤ s.clock + 1 := fun id t ht => by
    have hhorizon := h.horizon
    rw [stampedBatch_horizon]
    obtain hold | rfl := s.stampedBatch_tombstones schema mutations ht
    · have := h.remembered id t hold
      omega
    · omega
  have hpruned := apply_of_nonempty s schema mutations hc
  have hhorizon : (s.apply schema mutations).1.horizon ≤ s.clock + 1 := by
    rw [hpruned]
    refine prune_horizon_le ?_ fun id t ht => (hcrowd id t ht).2
    rw [stampedBatch_horizon]
    exact Nat.le_succ_of_le h.horizon
  refine ⟨hf.sound h.toSound, fun id r hr => ?_, fun id r hr => ?_, fun id r hr => ?_,
    fun id t ht => ?_, hf.clock ▸ hhorizon, ?_⟩
  · obtain hold | ⟨hvalid, -⟩ := hrecord id r hr
    · exact h.named id r hold
    · exact checkDocument_named hvalid
  · obtain hold | ⟨hvalid, -⟩ := hrecord id r hr
    · exact h.valid id r hold
    · exact hvalid
  · obtain hold | ⟨-, hstamp⟩ := hrecord id r hr
    · exact h.begun id r hold
    · omega
  · rw [hf.clock]
    rw [hpruned] at ht ⊢
    obtain ⟨hold, habove⟩ := prune_remembered (fun id t ht => (hcrowd id t ht).1) ht
    exact ⟨habove, (hcrowd id t hold).2⟩
  · rw [apply_maxTombstones, hpruned, ← stampedBatch_maxTombstones s schema mutations]
    exact prune_few _

theorem move {next : Store} (h : Intact schema s) (hm : Move schema s next) :
    Intact schema next := by
  cases hm with
  | apply mutations => exact h.apply mutations
  | advance => exact h.advance
  | restart maxTombstones pruneBuffer => exact h.restart maxTombstones pruneBuffer

theorem moves {next : Store} (h : Intact schema s)
    (hm : Relation.ReflTransGen (Move schema) s next) : Intact schema next := by
  induction hm with
  | refl => exact h
  | tail _ hlast ih => exact ih.move hlast

end Intact

theorem Move.horizon_le {schema : Schema} {s next : Store} (hm : Move schema s next)
    (h : s.horizon ≤ s.clock) : s.horizon ≤ next.horizon := by
  cases hm with
  | apply mutations =>
    by_cases hc : (s.apply schema mutations).2.changes = Table.empty
    · rw [apply_of_empty _ _ _ hc]
    · exact (s.follows_apply schema mutations hc).horizon
  | advance => exact Nat.le_refl _
  | restart maxTombstones pruneBuffer => exact h

theorem horizon_le_of_moves {schema : Schema} {s later : Store} (h : Intact schema s)
    (hm : Relation.ReflTransGen (Move schema) s later) : s.horizon ≤ later.horizon := by
  induction hm with
  | refl => exact Nat.le_refl _
  | tail hmoves hlast ih => exact ih.trans (hlast.horizon_le (h.moves hmoves).horizon)

/-- From an empty store on, whatever is written and deleted under one schema and however often the
store is restarted: the records are valid and the tombstones are few, the horizon only moves on, and
pruning always finds its cutoff. -/
theorem intact_of_moves {schema : Schema} {maxTombstones pruneBuffer : Nat} {s : Store}
    (h : Relation.ReflTransGen (Move schema) (.empty maxTombstones pruneBuffer) s) :
    Intact schema s ∧
      (∀ later, Relation.ReflTransGen (Move schema) s later → s.horizon ≤ later.horizon) ∧
      ∀ mutations,
        (s.apply schema mutations).1.maxTombstones = s.maxTombstones ∧
        let crowd := s.stampedBatch schema mutations
        crowd.maxTombstones < crowd.tombstones.size →
          0 < min crowd.excess crowd.clocks.length ∧
          min crowd.excess crowd.clocks.length - 1 < crowd.clocks.length ∧
          crowd.cutoff? ≠ none := by
  have hintact := (Intact.empty schema maxTombstones pruneBuffer).moves h
  refine ⟨hintact, fun later hm => horizon_le_of_moves hintact hm, fun mutations =>
    ⟨s.apply_maxTombstones schema mutations, fun hmany => ?_⟩⟩
  obtain ⟨hpos, hlt⟩ := cutoff_place hmany
  exact ⟨hpos, hlt, fun hnone => Nat.not_le.2 hlt (List.getElem?_eq_none_iff.1 hnone)⟩

/-- Where one tombstone is kept, the second of three goes with the third, which has the same clock.
After a restart where none is kept, the buffer asks for more than there are. -/
theorem intact_of_moves_crowded :
    let schema := (Schema.base 1).withType (.document "note")
    let write : RecordId → Mutation := fun id => ⟨id, .upsert "note" (.object [])⟩
    let delete : RecordId → Mutation := fun id => ⟨id, .delete⟩
    let filled := (Store.empty 1 0).run
      [.apply schema [write "a", write "b", write "c", write "d", write "e"],
        .apply schema [delete "a"]]
    let first := (filled.apply schema [delete "b", delete "c"]).1
    let restarted := ofSnapshot first.snapshot 0 9
    let second := (restarted.apply schema [delete "d"]).1
    let crowd := restarted.stampedBatch schema [delete "d"]
    filled.tombstones.keys = ["a"] ∧ first.tombstones.keys = [] ∧ first.horizon = 3 ∧
      crowd.tombstones.keys = ["d"] ∧ crowd.excess = 10 ∧ crowd.cutoff? ≠ none ∧
      second.records.keys = ["e"] ∧ second.tombstones.keys = [] ∧ second.horizon = 4 ∧
      Intact schema second ∧ restarted.horizon ≤ second.horizon := by
  intro schema write delete filled first restarted second crowd
  let dropped : Store → Nat → Store := fun crowd cutoff => { crowd with
    tombstones := crowd.tombstones.filter fun _ clock => cutoff < clock
    horizon := max crowd.horizon cutoff }
  have hfirst : first = dropped (filled.stampedBatch schema [delete "b", delete "c"]) 3 :=
    (filled.apply_of_nonempty schema _ (by decide +kernel)).trans
      (prune_of_sorted (by decide +kernel) (by decide +kernel) (by decide +kernel))
  have hsecond : second = dropped crowd 4 := by
    simp only [second, crowd, restarted, hfirst]
    exact (apply_of_nonempty _ schema _ (by decide +kernel)).trans
      (prune_of_sorted (by decide +kernel) (by decide +kernel) (by decide +kernel))
  have hfilled : Relation.ReflTransGen (Move schema) (.empty 1 0) filled :=
    .tail (.tail .refl (.apply _ _)) (.apply _ _)
  have hrestarted : Relation.ReflTransGen (Move schema) (.empty 1 0) restarted :=
    (hfilled.tail (.apply filled [delete "b", delete "c"])).tail (.restart first 0 9)
  have hlast : Move schema restarted second := .apply restarted [delete "d"]
  obtain ⟨-, hhorizon, hplace⟩ := intact_of_moves hrestarted
  have hmany : crowd.maxTombstones < crowd.tombstones.size := by
    simp only [crowd, restarted, hfirst]
    decide +kernel
  refine ⟨by decide +kernel, ?_, ?_, ?_, ?_, ((hplace [delete "d"]).2 hmany).2.2, ?_, ?_, ?_,
    (intact_of_moves (hrestarted.tail hlast)).1, hhorizon second (.single hlast)⟩
  -- The cutoffs are put in place of their computation, which sorts.
  all_goals
    simp only [hsecond, crowd, restarted, hfirst]
    decide +kernel

end RoomSync.Store
