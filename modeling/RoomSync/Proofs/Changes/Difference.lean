import Mathlib.Data.List.Perm.Subperm
import RoomSync.Proofs.Changes
import RoomSync.Proofs.Content.Equality

namespace RoomSync

open Table Record

namespace Changes

theorem holdsValue_iff {records : Table Record} {id : RecordId} {record : Record} :
    holdsValue records id record = true ↔ Option.Rel Same (records.get? id) (some record) := by
  rw [holdsValue]
  cases records.get? id with
  | none => exact ⟨fun h => absurd h Bool.false_ne_true, fun h => by cases h⟩
  | some old => exact ⟨fun h => .some h, fun h => by cases h with | some h => exact h⟩

theorem get?_between_eq_none_iff {before after : Table Record} (h : after.KeyedBy Record.id)
    (id : RecordId) :
    (between before after).get? id = none ↔
      Option.Rel Same (before.get? id) (after.get? id) := by
  rw [get?_between h]
  cases ha : after.get? id with
  | none =>
    cases hb : before.get? id with
    | none => exact ⟨fun _ => .none, fun _ => by simp [contains, hb]⟩
    | some old => exact ⟨fun hn => by simp [contains, hb] at hn, fun hr => by cases hr⟩
  | some record =>
    rw [← holdsValue_iff]
    by_cases hv : holdsValue before id record = true <;> simp [hv]

theorem result_of_get?_between {before after : Table Record} (h : after.KeyedBy Record.id)
    {id : RecordId} {change : Change} (hd : (between before after).get? id = some change) :
    change.result = after.get? id := by
  rw [get?_between h] at hd
  cases ha : after.get? id with
  | none =>
    rw [ha] at hd
    by_cases hc : before.contains id = true <;> simp [hc] at hd
    exact hd ▸ rfl
  | some record =>
    rw [ha] at hd
    by_cases hv : holdsValue before id record = true <;> simp [hv] at hd
    exact hd ▸ rfl

theorem get?_applyTo_between {before after : Table Record} (h : after.KeyedBy Record.id)
    (id : RecordId) :
    ((between before after).applyTo before).get? id = after.get? id ∨
      (((between before after).applyTo before).get? id = before.get? id ∧
        Option.Rel Same (before.get? id) (after.get? id)) := by
  rw [get?_applyTo]
  cases hd : (between before after).get? id with
  | none => exact .inr ⟨rfl, (get?_between_eq_none_iff h id).1 hd⟩
  | some change => exact .inl (result_of_get?_between h hd)

theorem sameValues_between {before after : Table Record} (h : after.KeyedBy Record.id) :
    SameValues ((between before after).applyTo before) after := by
  intro id
  obtain he | ⟨he, hr⟩ := get?_applyTo_between h id
  · exact he ▸ SameValues.refl after id
  · exact he ▸ hr

theorem keyed_applyTo_between {before after : Table Record} (hb : before.KeyedBy Record.id)
    (ha : after.KeyedBy Record.id) :
    ((between before after).applyTo before).KeyedBy Record.id := by
  intro id record hr
  obtain he | ⟨he, -⟩ := get?_applyTo_between ha id
  · exact ha id record (he ▸ hr)
  · exact hb id record (he ▸ hr)

theorem sameValues_applyTo (changes : Changes) {t u : Table Record} (h : SameValues t u) :
    SameValues (changes.applyTo t) (changes.applyTo u) := by
  intro id
  rw [get?_applyTo, get?_applyTo]
  cases changes.get? id with
  | none => exact h id
  | some change =>
    cases change with
    | put record => exact .some (Same.refl record)
    | remove => exact .none

theorem keys_between_subset {before after : Table Record} (h : after.KeyedBy Record.id)
    {changes : Changes} (hc : SameValues (changes.applyTo before) after) :
    (between before after).keys ⊆ changes.keys := by
  intro id hid
  obtain ⟨change, hd⟩ := mem_keys.1 hid
  cases hg : changes.get? id with
  | some change' => exact mem_keys.2 ⟨change', hg⟩
  | none =>
    have hrel := hc id
    have hsame : (changes.applyTo before).get? id = before.get? id := by rw [get?_applyTo, hg]; rfl
    rw [hsame, ← get?_between_eq_none_iff h, hd] at hrel
    cases hrel

theorem isEmpty_between_iff {before after : Table Record} (h : after.KeyedBy Record.id) :
    (between before after).isEmpty = true ↔ SameValues before after := by
  rw [Table.isEmpty_iff]
  refine ⟨fun he id => (get?_between_eq_none_iff h id).1 (he ▸ get?_empty id), fun hs => ?_⟩
  apply Table.ext
  intro id
  rw [get?_empty]
  exact (get?_between_eq_none_iff h id).2 (hs id)

theorem sameValues_union_between {a b c : Table Record} (hb : b.KeyedBy Record.id)
    (hc : c.KeyedBy Record.id) :
    SameValues (applyTo ((between a b).union (between b c)) a) c := by
  rw [applyTo_union]
  have hab : SameValues ((between a b).applyTo a) b := sameValues_between hb
  exact (sameValues_applyTo (between b c) hab).trans (sameValues_between hc)

/-- The difference of two sets of records is the least of all changes that do what it does: it
leads from the first set to the values of the second, no entry of it can be missed, whatever else
does the same names all its ids, it is empty just between sets with the same values, and two
differences with a set in common merge into changes from the first to the last. -/
theorem between_least {before after : Table Record} (hb : before.KeyedBy Record.id)
    (ha : after.KeyedBy Record.id) :
    (SameValues ((between before after).applyTo before) after ∧
      ((between before after).applyTo before).KeyedBy Record.id) ∧
    (∀ id, (between before after).contains id = true →
      ¬ SameValues (applyTo ((between before after).erase id) before) after) ∧
    (∀ changes : Changes, SameValues (changes.applyTo before) after →
      (between before after).keys ⊆ changes.keys ∧
        (between before after).size ≤ changes.size) ∧
    ((between before after).isEmpty = true ↔ SameValues before after) ∧
    ∀ last : Table Record, last.KeyedBy Record.id →
      SameValues (applyTo ((between before after).union (between after last)) before) last := by
  refine ⟨⟨sameValues_between ha, keyed_applyTo_between hb ha⟩, fun id hid hs => ?_,
    fun changes hs => ?_, isEmpty_between_iff ha, fun last hl => sameValues_union_between ha hl⟩
  · have hkey : id ∈ (between before after).keys := mem_keys.2 (contains_iff.1 hid)
    obtain ⟨change, hchange⟩ := mem_keys.1 (keys_between_subset ha hs hkey)
    rw [get?_erase, if_pos rfl] at hchange
    cases hchange
  · have hkeys := keys_between_subset ha hs
    have hlength := (List.subperm_of_subset (between before after).keys_nodup hkeys).length_le
    simp only [keys, List.length_map] at hlength
    exact ⟨hkeys, hlength⟩

/-- A new stamp and another sign of zero are no difference. -/
theorem between_least_zeros :
    let before := table [⟨"a", "shape", .int 1, 1⟩, ⟨"b", "shape", .float Binary64.zero, 1⟩,
      ⟨"c", "shape", .null, 1⟩]
    let after := table [⟨"a", "shape", .int 1, 4⟩, ⟨"b", "shape", .float Binary64.zero.neg, 4⟩,
      ⟨"d", "shape", .int 9, 4⟩]
    (between before after).keys = ["c", "d"] ∧
      SameValues ((between before after).applyTo before) after ∧
      (∀ changes : Changes, SameValues (changes.applyTo before) after → 2 ≤ changes.size) ∧
      SameValues (applyTo ((between before after).union (between after before)) before)
        before := by
  intro before after
  have h := between_least (keyed_table _ : before.KeyedBy Record.id)
    (keyed_table _ : after.KeyedBy Record.id)
  exact ⟨by decide, h.1.1, fun changes hs => (h.2.2.1 changes hs).2,
    h.2.2.2.2 before (keyed_table _)⟩

end Changes

end RoomSync
