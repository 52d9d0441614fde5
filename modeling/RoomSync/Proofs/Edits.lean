import RoomSync.Mutation
import RoomSync.Proofs.Table

namespace RoomSync

def Record.value (r : Record) : String × Content := (r.typeName, r.content)

def Edit.value : Edit → Option (String × Content)
  | .upsert typeName content => some (typeName, content)
  | .delete => none

def lastEdit? (mutations : List Mutation) (id : RecordId) : Option Edit :=
  Entries.last? id (mutations.map fun m => (m.recordId, m.edit))

@[simp] theorem lastEdit?_nil (id : RecordId) : lastEdit? [] id = none := rfl

theorem lastEdit?_cons (m : Mutation) (rest : List Mutation) (id : RecordId) :
    lastEdit? (m :: rest) id =
      (lastEdit? rest id).or (if m.recordId = id then some m.edit else none) := rfl

theorem lastEdit?_append (xs ys : List Mutation) (id : RecordId) :
    lastEdit? (xs ++ ys) id = (lastEdit? ys id).or (lastEdit? xs id) := by
  rw [lastEdit?, List.map_append, Entries.last?_append]
  rfl

theorem mem_of_lastEdit? {mutations : List Mutation} {id : RecordId} {e : Edit}
    (h : lastEdit? mutations id = some e) : ⟨id, e⟩ ∈ mutations := by
  obtain ⟨m, hm, he⟩ := List.mem_map.1 (Entries.mem_of_last? h)
  cases m
  cases he
  exact hm

theorem lastEdit?_eq_none_iff {mutations : List Mutation} {id : RecordId} :
    lastEdit? mutations id = none ↔ ∀ m ∈ mutations, m.recordId ≠ id :=
  Entries.last?_eq_none_iff.trans List.forall_mem_map

/-- A value, or none, is that of a record, up to the equality of contents. -/
def Agrees : Option (String × Content) → Option Record → Prop
  | some value, some record => record.sameValue value.1 value.2 = true
  | none, none => True
  | _, _ => False

theorem agrees_refl (record : Option Record) : Agrees (record.map Record.value) record := by
  cases record with
  | none => trivial
  | some r => simp [Agrees, Record.value, Record.sameValue, Content.same_refl]

theorem lastEdit?_filter (mutations : List Mutation) {keep : Mutation → Bool} {id : RecordId}
    (h : ∀ m ∈ mutations, m.recordId = id → keep m = true) :
    lastEdit? (mutations.filter keep) id = lastEdit? mutations id := by
  induction mutations with
  | nil => rfl
  | cons m rest ih =>
    have ih := ih fun m' hm' => h m' (List.mem_cons_of_mem _ hm')
    rw [lastEdit?_cons, List.filter_cons]
    by_cases hk : keep m = true
    · rw [if_pos hk, lastEdit?_cons, ih]
    · have hne : m.recordId ≠ id := fun hid => hk (h m List.mem_cons_self hid)
      rw [if_neg hk, ih, if_neg hne, Option.or_none]

end RoomSync
