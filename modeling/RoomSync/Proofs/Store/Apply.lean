import RoomSync.Proofs.Changes
import RoomSync.Proofs.Edits
import RoomSync.Store

namespace RoomSync.Store

open Table

/-- The change that an edit makes to the records, if it makes one. -/
def effect? (records : Table Record) (clock : Nat) (entry : RecordId × Edit) : Option Change :=
  match entry.2 with
  | .upsert typeName content =>
    let record : Record := ⟨entry.1, typeName, content, clock⟩
    if Changes.holdsValue records entry.1 record then none else some (.put record)
  | .delete => if records.contains entry.1 then some .remove else none

/-- What a change leaves of the tombstone of its id. -/
def tombstoneAfter (clock : Nat) : Change → Option Nat
  | .put _ => none
  | .remove => some clock

theorem write_of_effect_none {clock : Nat} {state : Store × Changes} {entry : RecordId × Edit}
    (h : effect? state.1.records clock entry = none) : write clock state entry = state := by
  obtain ⟨s, changes⟩ := state
  obtain ⟨id, edit⟩ := entry
  cases edit with
  | upsert typeName content =>
    simp only [effect?] at h
    simp only [write]
    split at h
    · rename_i hv
      rw [if_pos hv]
    · cases h
  | delete =>
    simp only [effect?] at h
    simp only [write]
    split at h
    · cases h
    · rename_i hc
      rw [if_neg hc]

theorem write_of_effect_some {clock : Nat} {state : Store × Changes} {entry : RecordId × Edit}
    {change : Change} (h : effect? state.1.records clock entry = some change) (l : RecordId) :
    (write clock state entry).2.get? l =
        (if l = entry.1 then some change else state.2.get? l) ∧
      (write clock state entry).1.records.get? l =
        (if l = entry.1 then change.result else state.1.records.get? l) ∧
      (write clock state entry).1.tombstones.get? l =
        (if l = entry.1 then tombstoneAfter clock change else state.1.tombstones.get? l) := by
  obtain ⟨s, changes⟩ := state
  obtain ⟨id, edit⟩ := entry
  cases edit with
  | upsert typeName content =>
    simp only [effect?] at h
    simp only [write]
    split at h
    · cases h
    · rename_i hv
      obtain rfl := Option.some.inj h
      rw [if_neg hv]
      exact ⟨get?_insert .., get?_insert .., get?_erase ..⟩
  | delete =>
    simp only [effect?] at h
    simp only [write]
    split at h
    · rename_i hc
      obtain rfl := Option.some.inj h
      rw [if_pos hc]
      exact ⟨get?_insert .., get?_erase .., get?_insert ..⟩
    · cases h

/-- A store and changes after some of the writes of a batch, seen at one id: the edit that came for
the id has had its effect. -/
structure Written (clock : Nat) (before after : Store × Changes) (edit? : Option Edit)
    (id : RecordId) : Prop where
  changes : after.2.get? id =
    (edit?.bind fun e => effect? before.1.records clock (id, e)).or (before.2.get? id)
  records : after.1.records.get? id =
    (edit?.bind fun e => effect? before.1.records clock (id, e)).elim
      (before.1.records.get? id) Change.result
  tombstones : after.1.tombstones.get? id =
    (edit?.bind fun e => effect? before.1.records clock (id, e)).elim
      (before.1.tombstones.get? id) (tombstoneAfter clock)

theorem effect?_congr {records records' : Table Record} {clock : Nat} {entry : RecordId × Edit}
    (h : records'.get? entry.1 = records.get? entry.1) :
    effect? records' clock entry = effect? records clock entry := by
  have hv : Changes.holdsValue records' entry.1 = Changes.holdsValue records entry.1 := by
    funext record
    rw [Changes.holdsValue, h, Changes.holdsValue]
  have hc : records'.contains entry.1 = records.contains entry.1 := by rw [contains, h, contains]
  rw [effect?, hv, hc, effect?]

theorem written_write (clock : Nat) (state : Store × Changes) (entry : RecordId × Edit)
    (id : RecordId) :
    Written clock state (write clock state entry) (if entry.1 = id then some entry.2 else none)
      id := by
  by_cases hid : entry.1 = id
  · subst hid
    rw [if_pos rfl]
    cases he : effect? state.1.records clock entry with
    | none =>
      rw [write_of_effect_none he]
      exact ⟨by simp [he], by simp [he], by simp [he]⟩
    | some change =>
      obtain ⟨hc, hr, ht⟩ := write_of_effect_some he entry.1
      exact ⟨by simp [he, hc], by simp [he, hr], by simp [he, ht]⟩
  · rw [if_neg hid]
    cases he : effect? state.1.records clock entry with
    | none =>
      rw [write_of_effect_none he]
      exact ⟨rfl, rfl, rfl⟩
    | some change =>
      obtain ⟨hc, hr, ht⟩ := write_of_effect_some he id
      have hid := Ne.symm hid
      exact ⟨by rw [hc, if_neg hid]; rfl, by rw [hr, if_neg hid]; rfl, by rw [ht, if_neg hid]; rfl⟩

theorem written_foldl (clock : Nat) (state : Store × Changes) (entries : List (RecordId × Edit))
    (hdistinct : entries.Pairwise fun a b => a.1 ≠ b.1) (id : RecordId) :
    Written clock state (entries.foldl (write clock) state) (Entries.last? id entries) id := by
  induction entries generalizing state with
  | nil => exact ⟨rfl, rfl, rfl⟩
  | cons e rest ih =>
    have hc := List.pairwise_cons.1 hdistinct
    have hw := written_write clock state e id
    obtain ⟨h1, h2, h3⟩ := ih (write clock state e) hc.2
    rw [List.foldl_cons, Entries.last?]
    by_cases he : e.1 = id
    · -- No later edit comes for the id.
      have hn : Entries.last? id rest = none :=
        Entries.last?_eq_none_iff.2 fun x hx hxi => hc.1 x hx (he.trans hxi.symm)
      rw [hn] at h1 h2 h3 ⊢
      rw [if_pos he] at hw ⊢
      exact ⟨h1.trans hw.changes, h2.trans hw.records, h3.trans hw.tombstones⟩
    · -- The first edit comes for another id, and leaves this one as it is.
      rw [if_neg he] at hw ⊢
      have hr : (write clock state e).1.records.get? id = state.1.records.get? id := hw.records
      have heff : ∀ edit, effect? (write clock state e).1.records clock (id, edit) =
          effect? state.1.records clock (id, edit) := fun edit => effect?_congr hr
      have hch : (write clock state e).2.get? id = state.2.get? id := hw.changes
      have ht : (write clock state e).1.tombstones.get? id = state.1.tombstones.get? id :=
        hw.tombstones
      simp only [heff, hr, hch, ht] at h1 h2 h3
      rw [Option.or_none]
      exact ⟨h1, h2, h3⟩

theorem horizon_foldl_write (clock : Nat) (state : Store × Changes)
    (entries : List (RecordId × Edit)) :
    (entries.foldl (write clock) state).1.horizon = state.1.horizon := by
  induction entries generalizing state with
  | nil => rfl
  | cons e rest ih =>
    rw [List.foldl_cons, ih]
    obtain ⟨s, changes⟩ := state
    obtain ⟨id, edit⟩ := e
    cases edit <;> simp only [write] <;> split <;> rfl

theorem prune_records (s : Store) : s.prune.records = s.records := by
  unfold prune
  split
  · rfl
  · cases s.cutoff? <;> rfl

theorem prune_clock (s : Store) : s.prune.clock = s.clock := by
  unfold prune
  split
  · rfl
  · cases s.cutoff? <;> rfl

theorem horizon_le_prune (s : Store) : s.horizon ≤ s.prune.horizon := by
  unfold prune
  split
  · exact Nat.le_refl _
  · cases s.cutoff? with
    | none => exact Nat.le_refl _
    | some cutoff => exact Nat.le_max_left ..

theorem prune_tombstones (s : Store) (id : RecordId) :
    s.prune.tombstones.get? id = s.tombstones.get? id ∨
      (s.prune.tombstones.get? id = none ∧
        ∀ t, s.tombstones.get? id = some t → t ≤ s.prune.horizon) := by
  unfold prune
  split
  · exact .inl rfl
  · cases s.cutoff? with
    | none => exact .inl rfl
    | some cutoff =>
      change (s.tombstones.filter fun _ clock => cutoff < clock).get? id = _ ∨ _ ∧
        ∀ t, _ → t ≤ max s.horizon cutoff
      rw [get?_filter]
      cases s.tombstones.get? id with
      | none => exact .inl rfl
      | some t =>
        by_cases ht : cutoff < t
        · exact .inl (by simp [Option.filter, ht])
        · refine .inr ⟨by simp [Option.filter, ht], fun u hu => ?_⟩
          obtain rfl := Option.some.inj hu
          exact Nat.le_trans (Nat.le_of_not_lt ht) (Nat.le_max_right ..)

theorem prune_of_sorted {s : Store} {cutoff : Nat} (hmany : s.maxTombstones < s.tombstones.size)
    (hsorted : s.tombstones.values.Pairwise (· ≤ ·))
    (hcutoff : s.tombstones.values[min s.excess s.tombstones.values.length - 1]? = some cutoff) :
    s.prune = { s with
      tombstones := s.tombstones.filter fun _ clock => cutoff < clock
      horizon := max s.horizon cutoff } := by
  have hsort : s.tombstones.values.mergeSort = s.tombstones.values :=
    List.mergeSort_of_pairwise (hsorted.imp fun h => decide_eq_true h)
  rw [prune, if_neg (Nat.not_le.2 hmany), cutoff?, hsort, hcutoff]

/-- One store follows another by one move of the clock that makes the given changes. -/
structure Follows (s next : Store) (changes : Changes) : Prop where
  clock : next.clock = s.clock + 1
  records : next.records = changes.applyTo s.records
  stamped : ∀ id r, changes.get? id = some (.put r) → r.id = id ∧ r.stamp = next.clock
  horizon : s.horizon ≤ next.horizon
  /-- A tombstone is a new one or an old one. -/
  tombstones : ∀ id t, next.tombstones.get? id = some t →
    (changes.get? id = some .remove ∧ t = next.clock) ∨
      (changes.get? id = none ∧ s.tombstones.get? id = some t)
  /-- Deletions above the horizon are known. -/
  deletions : ∀ id, changes.get? id = some .remove → next.horizon < next.clock →
    next.tombstones.get? id = some next.clock
  /-- Tombstones above the horizon stay until their id is written again. -/
  survivors : ∀ id t, changes.get? id = none → s.tombstones.get? id = some t →
    next.horizon < t → next.tombstones.get? id = some t

theorem Follows.get?_records {s next : Store} {changes : Changes} (hf : Follows s next changes)
    (id : RecordId) :
    next.records.get? id = (changes.get? id).elim (s.records.get? id) Change.result := by
  rw [hf.records, Changes.get?_applyTo]

theorem follows_advance (s : Store) : Follows s s.advance Table.empty where
  clock := rfl
  records := rfl
  stamped := nofun
  horizon := Nat.le_refl _
  tombstones := fun _ _ h => .inr ⟨rfl, h⟩
  deletions := nofun
  survivors := fun _ _ _ h _ => h

theorem effect?_put {records : Table Record} {clock : Nat} {entry : RecordId × Edit} {r : Record}
    (h : effect? records clock entry = some (.put r)) :
    r.id = entry.1 ∧ r.stamp = clock ∧ entry.2 = .upsert r.typeName r.content := by
  obtain ⟨id, edit⟩ := entry
  cases edit with
  | upsert typeName content =>
    simp only [effect?] at h
    split at h
    · cases h
    · obtain rfl := Change.put.inj (Option.some.inj h)
      exact ⟨rfl, rfl, rfl⟩
  | delete =>
    simp only [effect?] at h
    split at h <;> cases h

theorem agrees_effect (records : Table Record) (clock : Nat) (id : RecordId) (e : Edit) :
    Agrees e.value ((effect? records clock (id, e)).elim (records.get? id) Change.result) := by
  cases e with
  | upsert typeName content =>
    by_cases hv : Changes.holdsValue records id ⟨id, typeName, content, clock⟩ = true
    · simp only [effect?, if_pos hv, Option.elim_none, Edit.value]
      rw [Changes.holdsValue] at hv
      split at hv
      · rename_i old hr
        rw [hr]
        exact hv
      · cases hv
    · simp [effect?, hv, Edit.value, Agrees, Change.result, Record.sameValue, Content.same_refl]
  | delete =>
    by_cases hc : records.contains id = true
    · simp [effect?, hc, Edit.value, Agrees, Change.result]
    · have hr : records.get? id = none := Option.not_isSome_iff_eq_none.1 hc
      simp [effect?, hc, hr, Edit.value, Agrees]

theorem get?_lastEdits (schema : Schema) (mutations : List Mutation) (id : RecordId) :
    (lastEdits schema mutations).get? id =
      lastEdit? (mutations.filter fun m => (schema.refusal? m).isNone) id := get?_ofList ..

theorem pairwise_ne_of_ascending {α : Type} {entries : List (String × α)} (h : Ascending entries) :
    entries.Pairwise fun a b => a.1 ≠ b.1 := by
  have h : entries.Pairwise fun a b => a.1 < b.1 := h
  refine h.imp fun {a b} hlt heq => ?_
  exact String.lt_irrefl b.1 (heq ▸ hlt)

variable (s : Store) (schema : Schema) (mutations : List Mutation)

def writtenBatch : Store × Changes :=
  (lastEdits schema mutations).entries.foldl (write (s.clock + 1)) (s, Table.empty)

def stampedBatch : Store := { (s.writtenBatch schema mutations).1 with clock := s.clock + 1 }

theorem written_batch (id : RecordId) :
    Written (s.clock + 1) (s, Table.empty) (s.writtenBatch schema mutations)
      ((lastEdits schema mutations).get? id) id := by
  rw [← last?_entries]
  exact written_foldl _ _ _ (pairwise_ne_of_ascending (lastEdits schema mutations).ascending) id

theorem apply_changes (id : RecordId) :
    (s.apply schema mutations).2.changes.get? id =
      ((lastEdits schema mutations).get? id).bind fun e =>
        effect? s.records (s.clock + 1) (id, e) := by
  have h := (s.written_batch schema mutations id).changes
  rw [get?_empty, Option.or_none] at h
  exact h

theorem apply_of_empty (h : (s.apply schema mutations).2.changes = Table.empty) :
    (s.apply schema mutations).1 = s := by
  have he : (s.writtenBatch schema mutations).2.isEmpty = true := isEmpty_iff.2 h
  change (if (s.writtenBatch schema mutations).2.isEmpty then s else _) = s
  rw [if_pos he]

theorem apply_of_nonempty (h : (s.apply schema mutations).2.changes ≠ Table.empty) :
    (s.apply schema mutations).1 = prune (s.stampedBatch schema mutations) := by
  have he : ¬(s.writtenBatch schema mutations).2.isEmpty = true := fun he => h (isEmpty_iff.1 he)
  change (if (s.writtenBatch schema mutations).2.isEmpty then s else _) = _
  rw [if_neg he]
  rfl

theorem follows_apply (h : (s.apply schema mutations).2.changes ≠ Table.empty) :
    Follows s (s.apply schema mutations).1 (s.apply schema mutations).2.changes := by
  have hw := s.written_batch schema mutations
  have hch := s.apply_changes schema mutations
  have htomb : ∀ id, (s.stampedBatch schema mutations).tombstones.get? id =
      ((s.apply schema mutations).2.changes.get? id).elim (s.tombstones.get? id)
        (tombstoneAfter (s.clock + 1)) := fun id => by
    rw [hch]
    exact (hw id).tombstones
  have hclock : (s.stampedBatch schema mutations).prune.clock = s.clock + 1 := prune_clock _
  have hprune := prune_tombstones (s.stampedBatch schema mutations)
  rw [apply_of_nonempty s schema mutations h]
  refine ⟨hclock, ?_, fun id r hr => ?_, ?_, fun id t ht => ?_, fun id hc hlt => ?_,
    fun id t hc ht hlt => ?_⟩
  · apply Table.ext
    intro id
    rw [prune_records, Changes.get?_applyTo, hch]
    exact (hw id).records
  · rw [hch] at hr
    obtain ⟨e, -, he⟩ := Option.bind_eq_some_iff.1 hr
    obtain ⟨hid, hst, -⟩ := effect?_put he
    exact ⟨hid, hst.trans hclock.symm⟩
  · refine Nat.le_trans (Nat.le_of_eq ?_) (horizon_le_prune _)
    exact (horizon_foldl_write (s.clock + 1) (s, Table.empty) _).symm
  · have ht' : (s.stampedBatch schema mutations).tombstones.get? id = some t := by
      obtain hp | ⟨hp, -⟩ := hprune id
      · exact hp.symm.trans ht
      · rw [hp] at ht
        cases ht
    rw [htomb] at ht'
    rw [hclock]
    rcases hc : (s.apply schema mutations).2.changes.get? id with _ | _ | _
    · rw [hc] at ht'
      exact .inr ⟨rfl, ht'⟩
    · rw [hc] at ht'
      cases ht'
    · rw [hc] at ht'
      exact .inl ⟨rfl, (Option.some.inj ht').symm⟩
  · rw [hclock] at hlt ⊢
    have ht := htomb id
    rw [hc] at ht
    obtain hp | ⟨-, hp⟩ := hprune id
    · exact hp.trans ht
    · exact absurd (hp _ ht) (Nat.not_le.2 hlt)
  · have ht' := htomb id
    rw [hc] at ht'
    obtain hp | ⟨-, hp⟩ := hprune id
    · exact hp.trans (ht'.trans ht)
    · exact absurd (hp t (ht'.trans ht)) (Nat.not_le.2 hlt)

theorem apply_records (id : RecordId) :
    (s.apply schema mutations).1.records.get? id =
      ((s.apply schema mutations).2.changes.get? id).elim (s.records.get? id) Change.result := by
  by_cases hc : (s.apply schema mutations).2.changes = Table.empty
  · rw [apply_of_empty _ _ _ hc, hc]
    rfl
  · exact (follows_apply _ _ _ hc).get?_records id

theorem apply_valid {id : RecordId} {r : Record}
    (h : (s.apply schema mutations).2.changes.get? id = some (.put r)) :
    schema.checkDocument id r.typeName r.content = .ok () := by
  rw [apply_changes] at h
  obtain ⟨e, he, heff⟩ := Option.bind_eq_some_iff.1 h
  obtain ⟨-, -, rfl⟩ := effect?_put heff
  rw [lastEdits, get?_ofList] at he
  obtain ⟨m, hm, hme⟩ := List.mem_map.1 (Entries.mem_of_last? he)
  have hv := (List.mem_filter.1 hm).2
  obtain ⟨rfl, hedit⟩ := Prod.mk.inj hme
  simp only [Schema.refusal?, hedit] at hv
  revert hv
  cases schema.checkDocument m.recordId r.typeName r.content with
  | ok _ => exact fun _ => rfl
  | error reason => nofun

end RoomSync.Store
