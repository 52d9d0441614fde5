import RoomSync.Proofs.Content.RoundTrip

namespace RoomSync.Content

theorem takeDigits_lt {n : Nat} (h : n < 2 ^ 64) (ds : List Char) : (takeDigits n ds).1 < 2 ^ 64 := by
  induction ds generalizing n with
  | nil => exact h
  | cons d ds ih =>
    simp only [takeDigits, Nat.pow_eq]
    split
    · exact ih ‹_›
    · exact h

structure Shallow (depth : Nat) (c : Content) : Prop where
  sound : c.Sound
  depth : c.depth ≤ depth

instance (depth : Nat) (c : Content) : Decidable (Shallow depth c) :=
  decidable_of_iff (c.Sound ∧ c.depth ≤ depth) ⟨fun h => ⟨h.1, h.2⟩, fun h => ⟨h.sound, h.depth⟩⟩

theorem Shallow.single {depth : Nat} {c : Content} (hparts : c.parts = [c]) (hdepth : c.depth = 0)
    (h : c.WellFormed) : Shallow depth c := by
  refine ⟨fun v hv => ?_, by omega⟩
  rw [hparts, List.mem_singleton] at hv
  exact hv ▸ h

theorem shallow_numberOf {negative : Bool} {whole fraction : List Char} {exponent : Option Int}
    {c : Content} (h : numberOf negative whole fraction exponent = some c) (depth : Nat) :
    Shallow depth c := by
  have hlimit := takeDigits_lt (takeDigits_lt (Nat.two_pow_pos 64) whole) fraction
  simp only [numberOf] at h
  split at h
  · split at h
    · split at h
      · cases h
        exact .single rfl rfl (Binary64.normalZero_ofNat _).neg
      · rename_i hnegative
        cases h
        simp only [Nat.pow_eq, not_or] at hnegative
        refine .single rfl rfl ?_
        simp only [WellFormed, IntFits]
        omega
    · cases h
      refine .single rfl rfl ?_
      simp only [WellFormed, IntFits]
      omega
  · obtain ⟨x, hx, rfl⟩ := Option.map_eq_some_iff.1 h
    have hzero := Binary64.normalZero_ofScientific? hx
    refine .single rfl rfl ?_
    cases negative
    · exact hzero
    · exact hzero.neg

theorem shallow_readUnsigned {negative : Bool} {cs rest : List Char} {c : Content}
    (h : readUnsigned negative cs = some (c, rest)) (depth : Nat) : Shallow depth c := by
  obtain ⟨⟨whole, cs₁⟩, -, h⟩ := Option.bind_eq_some_iff.1 h
  obtain ⟨⟨fraction, cs₂⟩, -, h⟩ := Option.bind_eq_some_iff.1 h
  obtain ⟨⟨exponent, cs₃⟩, -, h⟩ := Option.bind_eq_some_iff.1 h
  obtain ⟨value, hvalue, h⟩ := Option.bind_eq_some_iff.1 h
  cases h
  exact shallow_numberOf hvalue depth

theorem shallow_readNumber {cs rest : List Char} {c : Content} (h : readNumber cs = some (c, rest))
    (depth : Nat) : Shallow depth c := by
  unfold readNumber at h
  split at h
  · exact shallow_readUnsigned h depth
  · exact shallow_readUnsigned h depth

theorem mem_partsItems {v : Content} {items : List Content} :
    v ∈ partsItems items ↔ ∃ item ∈ items, v ∈ item.parts := by
  induction items with
  | nil => simp [partsItems]
  | cons item rest ih => simp [partsItems, ih]

theorem mem_partsFields {v : Content} {fields : List (String × Content)} :
    v ∈ partsFields fields ↔ ∃ field ∈ fields, v ∈ field.2.parts := by
  induction fields with
  | nil => simp [partsFields]
  | cons field rest ih => simp [partsFields, ih]

theorem depthItems_le {depth : Nat} {items : List Content} :
    depthItems items ≤ depth ↔ ∀ item ∈ items, item.depth ≤ depth := by
  induction items with
  | nil => simp [depthItems]
  | cons item rest ih => rw [depthItems, Nat.max_le, ih, List.forall_mem_cons]

theorem depthFields_le {depth : Nat} {fields : List (String × Content)} :
    depthFields fields ≤ depth ↔ ∀ field ∈ fields, field.2.depth ≤ depth := by
  induction fields with
  | nil => simp [depthFields]
  | cons field rest ih => rw [depthFields, Nat.max_le, ih, List.forall_mem_cons]

theorem Shallow.array {depth : Nat} {items : List Content} (h : ∀ item ∈ items, Shallow depth item) :
    Shallow (depth + 1) (.array items) := by
  refine ⟨List.forall_mem_cons.2 ⟨trivial, fun v hv => ?_⟩, ?_⟩
  · obtain ⟨item, hitem, hv⟩ := mem_partsItems.1 hv
    exact (h item hitem).sound v hv
  · exact Nat.succ_le_succ (depthItems_le.2 fun item hitem => (h item hitem).depth)

theorem Shallow.ofFields {depth : Nat} {fields : List (String × Content)}
    (h : ∀ field ∈ fields, Shallow depth field.2) : Shallow (depth + 1) (Content.ofFields fields) := by
  have hall : ∀ field ∈ (Table.ofList fields).entries, Shallow depth field.2 := fun field hfield =>
    h field (Table.mem_ofList hfield)
  refine ⟨List.forall_mem_cons.2 ⟨(Table.ofList fields).ascending, fun v hv => ?_⟩, ?_⟩
  · obtain ⟨field, hfield, hv⟩ := mem_partsFields.1 hv
    exact (hall field hfield).sound v hv
  · exact Nat.succ_le_succ (depthFields_le.2 fun field hfield => (hall field hfield).depth)

mutual

theorem shallow_readValue : ∀ {budget depth : Nat} {cs rest : List Char} {c : Content},
    readValue budget depth cs = some (c, rest) → Shallow depth c
  | budget + 1, depth, cs, rest, c, h => by
    rw [readValue] at h
    split at h
    · cases h
      exact .single rfl rfl trivial
    · cases h
      exact .single rfl rfl trivial
    · cases h
      exact .single rfl rfl trivial
    · obtain ⟨⟨s, left⟩, -, h⟩ := Option.map_eq_some_iff.1 h
      cases h
      exact .single rfl rfl trivial
    · cases depth with
      | zero => cases h
      | succ depth =>
        rw [if_neg (Nat.succ_ne_zero depth)] at h
        split at h
        · cases h
          exact .array nofun
        · obtain ⟨⟨items, left⟩, hitems, h⟩ := Option.map_eq_some_iff.1 h
          cases h
          exact .array (shallow_readItems hitems)
    · cases depth with
      | zero => cases h
      | succ depth =>
        rw [if_neg (Nat.succ_ne_zero depth)] at h
        split at h
        · cases h
          exact (Shallow.ofFields nofun : Shallow (depth + 1) (Content.ofFields []))
        · obtain ⟨⟨fields, left⟩, hfields, h⟩ := Option.map_eq_some_iff.1 h
          cases h
          exact .ofFields (shallow_readFields hfields)
    · exact shallow_readNumber h depth

theorem shallow_readItems : ∀ {budget depth : Nat} {cs rest : List Char} {items : List Content},
    readItems budget depth cs = some (items, rest) → ∀ item ∈ items, Shallow depth item
  | budget + 1, depth, cs, rest, items, h => by
    rw [readItems] at h
    obtain ⟨⟨item, left⟩, hitem, h⟩ := Option.bind_eq_some_iff.1 h
    have hfirst := shallow_readValue hitem
    dsimp only at h
    split at h
    · obtain ⟨⟨items, left⟩, hitems, h⟩ := Option.bind_eq_some_iff.1 h
      cases h
      exact List.forall_mem_cons.2 ⟨hfirst, shallow_readItems hitems⟩
    · cases h
      exact List.forall_mem_singleton.2 hfirst
    · cases h

theorem shallow_readFields : ∀ {budget depth : Nat} {cs rest : List Char}
    {fields : List (String × Content)},
    readFields budget depth cs = some (fields, rest) → ∀ field ∈ fields, Shallow depth field.2
  | budget + 1, depth, cs, rest, fields, h => by
    rw [readFields] at h
    split at h
    · obtain ⟨⟨name, left⟩, -, h⟩ := Option.bind_eq_some_iff.1 h
      dsimp only at h
      split at h
      · obtain ⟨⟨value, left⟩, hvalue, h⟩ := Option.bind_eq_some_iff.1 h
        have hfirst := shallow_readValue hvalue
        dsimp only at h
        split at h
        · obtain ⟨⟨fields, left⟩, hfields, h⟩ := Option.bind_eq_some_iff.1 h
          cases h
          exact List.forall_mem_cons.2 ⟨hfirst, shallow_readFields hfields⟩
        · cases h
          exact List.forall_mem_singleton.2 hfirst
        · cases h
      · cases h
    · cases h

end

theorem shallow_read? {s : String} {c : Content} (h : read? s = some c) : Shallow maxDepth c := by
  obtain ⟨⟨value, left⟩, hvalue, h⟩ := Option.bind_eq_some_iff.1 h
  obtain ⟨-, rfl⟩ : skipBlanks left = [] ∧ value = c := by simpa using h
  exact shallow_readValue hvalue

end RoomSync.Content
