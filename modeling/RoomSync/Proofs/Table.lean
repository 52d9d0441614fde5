import RoomSync.Table

namespace RoomSync

variable {α β : Type}

namespace Entries

def last? (key : String) : List (String × α) → Option α
  | [] => none
  | entry :: rest => (last? key rest).or (if entry.1 = key then some entry.2 else none)

theorem last?_append (key : String) (xs ys : List (String × α)) :
    last? key (xs ++ ys) = (last? key ys).or (last? key xs) := by
  induction xs with
  | nil => simp [last?]
  | cons x xs ih => rw [List.cons_append, last?, last?, ih, Option.or_assoc]

theorem last?_eq_none_iff {key : String} {entries : List (String × α)} :
    last? key entries = none ↔ ∀ e ∈ entries, e.1 ≠ key := by
  induction entries with
  | nil => simp [last?]
  | cons e rest ih =>
    rw [last?, Option.or_eq_none_iff, ih, List.forall_mem_cons, and_comm]
    by_cases h : e.1 = key <;> simp [h]

theorem mem_of_last? {key : String} {value : α} {entries : List (String × α)}
    (h : last? key entries = some value) : (key, value) ∈ entries := by
  induction entries with
  | nil => cases h
  | cons e rest ih =>
    rw [last?] at h
    obtain h | ⟨-, h⟩ := Option.or_eq_some_iff.1 h
    · exact List.mem_cons_of_mem _ (ih h)
    · by_cases he : e.1 = key
      · rw [if_pos he] at h
        obtain rfl := Option.some.inj h
        exact he ▸ List.mem_cons_self
      · rw [if_neg he] at h
        cases h

theorem last?_eq_get? {entries : List (String × α)} (h : Ascending entries) (key : String) :
    last? key entries = get? key entries := by
  induction entries with
  | nil => rfl
  | cons e rest ih =>
    have hc := List.pairwise_cons.1 h
    rw [last?, get?, ih hc.2]
    by_cases hk : key = e.1
    · have hn : get? key rest = none :=
        get?_eq_none fun x hx hxk => String.lt_irrefl _ (hk ▸ hxk ▸ hc.1 x hx)
      rw [hn, if_pos hk.symm, if_pos hk, Option.none_or]
    · simp [hk, Ne.symm hk]

end Entries

namespace Table

/-- Every value lies under the key that it names itself. -/
def KeyedBy (t : Table α) (name : α → String) : Prop :=
  ∀ key value, t.get? key = some value → name value = key

theorem KeyedBy.insert {t : Table α} {name : α → String} (h : t.KeyedBy name) (value : α) :
    (t.insert (name value) value).KeyedBy name := by
  intro key v hv
  rw [get?_insert] at hv
  by_cases hk : key = name value
  · rw [if_pos hk] at hv
    rw [hk, Option.some.inj hv]
  · rw [if_neg hk] at hv
    exact h key v hv

theorem KeyedBy.erase {t : Table α} {name : α → String} (h : t.KeyedBy name) (key : String) :
    (t.erase key).KeyedBy name := by
  intro k v hv
  rw [get?_erase] at hv
  by_cases hk : k = key
  · simp [hk] at hv
  · rw [if_neg hk] at hv
    exact h k v hv

theorem get?_insertAll (t : Table α) (entries : List (String × α)) (key : String) :
    (t.insertAll entries).get? key = (Entries.last? key entries).or (t.get? key) := by
  unfold insertAll
  induction entries generalizing t with
  | nil => simp [Entries.last?]
  | cons e rest ih =>
    rw [List.foldl_cons, ih, Entries.last?, get?_insert, Option.or_assoc]
    congr 1
    by_cases h : key = e.1 <;> simp [h, eq_comm]

theorem get?_ofList (entries : List (String × α)) (key : String) :
    (ofList entries).get? key = Entries.last? key entries := by
  rw [ofList, get?_insertAll, get?_empty, Option.or_none]

theorem mem_ofList {entries : List (String × α)} {e : String × α}
    (h : e ∈ (ofList entries).entries) : e ∈ entries := by
  have hget : (ofList entries).get? e.1 = some e.2 := get?_eq_some_iff.2 h
  rw [get?_ofList] at hget
  exact Entries.mem_of_last? hget

theorem last?_entries (t : Table α) (key : String) : Entries.last? key t.entries = t.get? key :=
  Entries.last?_eq_get? t.ascending key

@[simp] theorem ofList_entries (t : Table α) : ofList t.entries = t := by
  apply Table.ext
  intro key
  rw [get?_ofList, last?_entries]

theorem length_insert_le (t : Table α) (key : String) (value : α) :
    (t.insert key value).entries.length ≤ t.entries.length + 1 := by
  simp only [insert]
  induction t.entries with
  | nil => simp [Entries.insert]
  | cons e rest ih =>
    simp only [Entries.insert]
    split
    · simp
    · split
      · simp
      · simpa using ih

theorem length_ofList_le (entries : List (String × α)) :
    (ofList entries).entries.length ≤ entries.length := by
  have hall : ∀ (entries : List (String × α)) (t : Table α),
      (t.insertAll entries).entries.length ≤ t.entries.length + entries.length := by
    intro entries
    induction entries with
    | nil => exact fun t => Nat.le_refl _
    | cons e rest ih =>
      intro t
      have hrest := ih (t.insert e.1 e.2)
      have hfirst := t.length_insert_le e.1 e.2
      simp only [List.length_cons]
      exact Nat.le_trans hrest (by omega)
  simpa [ofList, empty] using hall entries empty

@[simp] theorem get?_union (t later : Table α) (key : String) :
    (t.union later).get? key = (later.get? key).or (t.get? key) := by
  rw [union, get?_insertAll, last?_entries]

theorem union_assoc (t u v : Table α) : (t.union u).union v = t.union (u.union v) := by
  apply Table.ext
  intro key
  simp only [get?_union, Option.or_assoc]

theorem mem_values {t : Table α} {value : α} :
    value ∈ t.values ↔ ∃ key, t.get? key = some value := by
  simp only [values, List.mem_map, get?_eq_some_iff]
  exact ⟨fun ⟨e, he, hv⟩ => ⟨e.1, hv ▸ he⟩, fun ⟨key, hk⟩ => ⟨(key, value), hk, rfl⟩⟩

theorem mem_keys {t : Table α} {key : String} : key ∈ t.keys ↔ ∃ value, t.get? key = some value := by
  simp only [keys, List.mem_map, get?_eq_some_iff]
  exact ⟨fun ⟨e, he, hk⟩ => ⟨e.2, hk ▸ he⟩, fun ⟨value, hv⟩ => ⟨(key, value), hv, rfl⟩⟩

theorem keys_nodup (t : Table α) : t.keys.Nodup := by
  refine List.pairwise_map.2 (t.ascending.imp fun h he => ?_)
  exact String.lt_irrefl _ (he ▸ h)

theorem values_filter (t : Table α) (keep : String → α → Bool) (name : α → String)
    (h : t.KeyedBy name) :
    t.values.filter (fun v => keep (name v) v) = (t.filter keep).values := by
  have hn : ∀ e ∈ t.entries, name e.2 = e.1 := fun e he => h _ _ (get?_eq_some_iff.2 he)
  simp only [values, filter, List.filter_map]
  congr 1
  refine List.filter_congr fun e he => ?_
  simp [hn e he]

theorem last?_values {t : Table α} {name : α → String} (h : t.KeyedBy name) (key : String) :
    Entries.last? key (t.values.map fun v => (name v, v)) = t.get? key := by
  have he : t.values.map (fun v => (name v, v)) = t.entries := by
    rw [values, List.map_map]
    refine (List.map_congr_left fun e he => ?_).trans (List.map_id _)
    have hn : name e.2 = e.1 := h _ _ (get?_eq_some_iff.2 he)
    simp [hn]
  rw [he, last?_entries]

end Table

end RoomSync
