namespace RoomSync

variable {α β : Type}

/-- The key order of a table: code points from left to right, which is also the order of the
UTF-8 bytes. -/
def Ascending (entries : List (String × α)) : Prop :=
  entries.Pairwise fun a b => a.1 < b.1

instance (entries : List (String × α)) : Decidable (Ascending entries) :=
  inferInstanceAs (Decidable (entries.Pairwise fun a b => a.1 < b.1))

namespace Entries

def insert (key : String) (value : α) : List (String × α) → List (String × α)
  | [] => [(key, value)]
  | entry :: rest =>
    if key < entry.1 then (key, value) :: entry :: rest
    else if key = entry.1 then (key, value) :: rest
    else entry :: insert key value rest

def get? (key : String) : List (String × α) → Option α
  | [] => none
  | entry :: rest => if key = entry.1 then some entry.2 else get? key rest

theorem mem_insert {key : String} {value : α} {entries : List (String × α)} {e : String × α}
    (h : e ∈ insert key value entries) : e = (key, value) ∨ e ∈ entries := by
  induction entries with
  | nil => simpa [insert] using h
  | cons entry rest ih =>
    simp only [insert] at h
    split at h
    · simpa using h
    · split at h
      · obtain rfl | h := List.mem_cons.1 h
        · exact .inl rfl
        · exact .inr (List.mem_cons_of_mem _ h)
      · obtain rfl | h := List.mem_cons.1 h
        · exact .inr List.mem_cons_self
        · exact (ih h).imp id (List.mem_cons_of_mem _)

theorem ascending_insert {key : String} {value : α} {entries : List (String × α)}
    (h : Ascending entries) : Ascending (insert key value entries) := by
  induction entries with
  | nil => simp [insert, Ascending]
  | cons entry rest ih =>
    have hc := List.pairwise_cons.1 h
    simp only [insert]
    split
    · rename_i hlt
      refine List.pairwise_cons.2 ⟨fun e he => ?_, h⟩
      obtain rfl | he := List.mem_cons.1 he
      · exact hlt
      · exact String.lt_trans hlt (hc.1 e he)
    · split
      · rename_i heq
        exact List.pairwise_cons.2 ⟨fun e he => heq ▸ hc.1 e he, hc.2⟩
      · rename_i hnlt hne
        refine List.pairwise_cons.2 ⟨fun e he => ?_, ih hc.2⟩
        obtain rfl | he := mem_insert he
        · by_cases hgt : entry.1 < key
          · exact hgt
          · exact absurd (String.le_antisymm (String.not_lt.1 hgt) (String.not_lt.1 hnlt)) hne
        · exact hc.1 e he

theorem get?_insert (key l : String) (value : α) (entries : List (String × α)) :
    get? l (insert key value entries) = if l = key then some value else get? l entries := by
  induction entries with
  | nil => simp [insert, get?]
  | cons entry rest ih =>
    simp only [insert]
    split
    · simp [get?]
    · split
      · rename_i heq
        by_cases hl : l = key <;> simp [get?, hl, heq ▸ hl]
      · rename_i hne
        by_cases hl : l = entry.1
        · have hlk : l ≠ key := fun h => hne (h ▸ hl)
          simp [get?, hl, hl ▸ hlk]
        · simp [get?, hl, ih]

theorem get?_eq_none {key : String} {entries : List (String × α)}
    (h : ∀ e ∈ entries, e.1 ≠ key) : get? key entries = none := by
  induction entries with
  | nil => rfl
  | cons entry rest ih =>
    have hne : key ≠ entry.1 := fun hk => h entry List.mem_cons_self hk.symm
    simp only [get?, if_neg hne]
    exact ih fun e he => h e (List.mem_cons_of_mem _ he)

theorem get?_eq_some_iff {key : String} {value : α} {entries : List (String × α)}
    (h : Ascending entries) : get? key entries = some value ↔ (key, value) ∈ entries := by
  induction entries with
  | nil => simp [get?]
  | cons entry rest ih =>
    have hc := List.pairwise_cons.1 h
    by_cases hk : key = entry.1
    · subst hk
      simp only [get?, if_true, Option.some.injEq, List.mem_cons]
      refine ⟨fun hv => .inl (hv ▸ rfl), fun hv => ?_⟩
      obtain hv | hv := hv
      · exact (congrArg Prod.snd hv).symm
      · exact absurd (hc.1 _ hv) (String.lt_irrefl _)
    · simp only [get?, if_neg hk, ih hc.2, List.mem_cons]
      refine ⟨.inr, fun hv => hv.resolve_left fun he => hk (congrArg Prod.fst he)⟩

theorem ext {xs ys : List (String × α)} (hx : Ascending xs) (hy : Ascending ys)
    (h : ∀ key, get? key xs = get? key ys) : xs = ys := by
  induction xs generalizing ys with
  | nil =>
    cases ys with
    | nil => rfl
    | cons y ys => simpa [get?] using h y.1
  | cons x xs ih =>
    cases ys with
    | nil => simpa [get?] using h x.1
    | cons y ys =>
      have cx := List.pairwise_cons.1 hx
      have cy := List.pairwise_cons.1 hy
      have mx : x ∈ y :: ys := (get?_eq_some_iff hy).1 ((h x.1).symm.trans (by simp [get?]))
      have my : y ∈ x :: xs := (get?_eq_some_iff hx).1 ((h y.1).trans (by simp [get?]))
      have heq : x = y := by
        obtain rfl | hxy := List.mem_cons.1 mx
        · rfl
        · obtain rfl | hyx := List.mem_cons.1 my
          · rfl
          · exact absurd (cy.1 x hxy) (String.lt_asymm (cx.1 y hyx))
      subst heq
      refine congrArg (x :: ·) (ih cx.2 cy.2 fun key => ?_)
      by_cases hk : key = x.1
      · have hxs : get? key xs = none :=
          get?_eq_none fun e he hek => String.lt_irrefl _ (hk ▸ hek ▸ cx.1 e he)
        have hys : get? key ys = none :=
          get?_eq_none fun e he hek => String.lt_irrefl _ (hk ▸ hek ▸ cy.1 e he)
        rw [hxs, hys]
      · simpa [get?, hk] using h key

end Entries

structure Table (α : Type) where
  entries : List (String × α)
  ascending : Ascending entries := by decide

namespace Table

instance [DecidableEq α] : DecidableEq (Table α) := fun t u =>
  if h : t.entries = u.entries then .isTrue (by cases t; cases u; cases h; rfl)
  else .isFalse fun e => h (e ▸ rfl)

instance [BEq α] : BEq (Table α) := ⟨fun t u => t.entries == u.entries⟩

def empty : Table α := ⟨[], List.Pairwise.nil⟩

instance : EmptyCollection (Table α) := ⟨empty⟩

instance : Inhabited (Table α) := ⟨empty⟩

def get? (t : Table α) (key : String) : Option α := Entries.get? key t.entries

def contains (t : Table α) (key : String) : Bool := (t.get? key).isSome

def insert (t : Table α) (key : String) (value : α) : Table α :=
  ⟨Entries.insert key value t.entries, Entries.ascending_insert t.ascending⟩

def filter (t : Table α) (keep : String → α → Bool) : Table α :=
  ⟨t.entries.filter fun e => keep e.1 e.2, t.ascending.filter _⟩

def erase (t : Table α) (key : String) : Table α := t.filter fun k _ => k ≠ key

def map (t : Table α) (f : α → β) : Table β :=
  ⟨t.entries.map fun e => (e.1, f e.2), by
    have h := t.ascending
    rw [Ascending, List.pairwise_map]
    exact h⟩

def modify (t : Table α) (key : String) (f : α → α) : Table α :=
  match t.get? key with
  | some value => t.insert key (f value)
  | none => t

/-- Lay a list of entries over a table; later entries replace earlier ones. -/
def insertAll (t : Table α) (entries : List (String × α)) : Table α :=
  entries.foldl (fun t e => t.insert e.1 e.2) t

def ofList (entries : List (String × α)) : Table α := empty.insertAll entries

def union (t later : Table α) : Table α := t.insertAll later.entries

def keys (t : Table α) : List String := t.entries.map (·.1)

def values (t : Table α) : List α := t.entries.map (·.2)

def size (t : Table α) : Nat := t.entries.length

def isEmpty (t : Table α) : Bool := t.entries.isEmpty

theorem ext {t u : Table α} (h : ∀ key, t.get? key = u.get? key) : t = u := by
  have he := Entries.ext t.ascending u.ascending h
  cases t; cases u; cases he; rfl

theorem get?_eq_some_iff {t : Table α} {key : String} {value : α} :
    t.get? key = some value ↔ (key, value) ∈ t.entries :=
  Entries.get?_eq_some_iff t.ascending

@[simp] theorem get?_empty (key : String) : (empty : Table α).get? key = none := rfl

theorem get?_insert (t : Table α) (key l : String) (value : α) :
    (t.insert key value).get? l = if l = key then some value else t.get? l :=
  Entries.get?_insert key l value t.entries

@[simp] theorem get?_insert_self (t : Table α) (key : String) (value : α) :
    (t.insert key value).get? key = some value := by simp [get?_insert]

theorem get?_filter (t : Table α) (keep : String → α → Bool) (key : String) :
    (t.filter keep).get? key = (t.get? key).filter (keep key) := by
  cases h : t.get? key with
  | none =>
    refine Option.eq_none_iff_forall_not_mem.2 fun value hv => ?_
    have hm := (get?_eq_some_iff.1 hv)
    have := get?_eq_some_iff.2 (List.mem_filter.1 hm).1
    rw [h] at this
    cases this
  | some value =>
    have hm := get?_eq_some_iff.1 h
    cases hk : keep key value with
    | true =>
      simp only [Option.filter, hk, if_true]
      exact get?_eq_some_iff.2 (List.mem_filter.2 ⟨hm, hk⟩)
    | false =>
      simp only [Option.filter, hk]
      refine Option.eq_none_iff_forall_not_mem.2 fun v hv => ?_
      have hv := List.mem_filter.1 (get?_eq_some_iff.1 hv)
      have he := get?_eq_some_iff.2 hv.1
      rw [h] at he
      cases he
      rw [hk] at hv
      exact absurd hv.2 (by simp)

theorem get?_erase (t : Table α) (key l : String) :
    (t.erase key).get? l = if l = key then none else t.get? l := by
  rw [erase, get?_filter]
  by_cases h : l = key <;> cases t.get? l <;> simp [h]

theorem get?_map (t : Table α) (f : α → β) (key : String) :
    (t.map f).get? key = (t.get? key).map f := by
  simp only [get?, map]
  induction t.entries with
  | nil => rfl
  | cons e rest ih => by_cases h : key = e.1 <;> simp [Entries.get?, h, ih]

theorem get?_modify (t : Table α) (key l : String) (f : α → α) :
    (t.modify key f).get? l = if l = key then (t.get? l).map f else t.get? l := by
  unfold modify
  split
  · rename_i value h
    rw [get?_insert]
    by_cases hl : l = key <;> simp [hl, h]
  · rename_i h
    by_cases hl : l = key <;> simp [hl, h]

theorem get?_modify_cases {t : Table α} {key l : String} {f : α → α} {value : α}
    (h : (t.modify key f).get? l = some value) :
    (l = key ∧ ∃ old, t.get? l = some old ∧ f old = value) ∨ (l ≠ key ∧ t.get? l = some value) := by
  rw [get?_modify] at h
  split at h
  · rename_i hl
    exact .inl ⟨hl, Option.map_eq_some_iff.1 h⟩
  · rename_i hl
    exact .inr ⟨hl, h⟩

theorem get?_of_modify_eq_none {t : Table α} {key l : String} {f : α → α}
    (h : (t.modify key f).get? l = none) : t.get? l = none := by
  rw [get?_modify] at h
  split at h
  · exact Option.map_eq_none_iff.1 h
  · exact h

theorem contains_iff {t : Table α} {key : String} :
    t.contains key = true ↔ ∃ value, t.get? key = some value :=
  Option.isSome_iff_exists

theorem isEmpty_iff {t : Table α} : t.isEmpty = true ↔ t = empty := by
  refine ⟨fun h => ?_, fun h => h ▸ rfl⟩
  cases t with
  | mk entries _ =>
    cases entries with
    | nil => rfl
    | cons e rest => cases h

end Table

end RoomSync
