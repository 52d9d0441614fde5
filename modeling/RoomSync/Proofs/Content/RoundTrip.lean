import RoomSync.Proofs.Binary64
import RoomSync.Proofs.Content.Number
import RoomSync.Proofs.Content.Text
import RoomSync.Proofs.Table

namespace RoomSync.Content

mutual

def parts : Content → List Content
  | .array items => .array items :: partsItems items
  | .object fields => .object fields :: partsFields fields
  | c => [c]

def partsItems : List Content → List Content
  | [] => []
  | item :: rest => parts item ++ partsItems rest

def partsFields : List (String × Content) → List Content
  | [] => []
  | (_, value) :: rest => parts value ++ partsFields rest

end

def float? : Content → Option Binary64
  | .float x => some x
  | _ => none

def floats (c : Content) : List Binary64 := c.parts.filterMap float?

theorem mem_floats {x : Binary64} {c : Content} : x ∈ c.floats ↔ .float x ∈ c.parts := by
  rw [floats, List.mem_filterMap]
  constructor
  · rintro ⟨v, hv, hx⟩
    cases v with
    | float y =>
      cases hx
      exact hv
    | _ => cases hx
  · exact fun hx => ⟨.float x, hx, rfl⟩

/-- An integer has a 64-bit type, a floating-point zero is in normal form and an object has each
name once, in order. Nothing is said of the values inside. -/
def WellFormed : Content → Prop
  | .int n => IntFits n
  | .float x => x.NormalZero
  | .object fields => Ascending fields
  | _ => True

instance : DecidablePred WellFormed
  | .int n => inferInstanceAs (Decidable (IntFits n))
  | .float x => inferInstanceAs (Decidable x.NormalZero)
  | .object fields => inferInstanceAs (Decidable (Ascending fields))
  | .null | .bool _ | .text _ | .array _ => isTrue trivial

/-- A value as it can be built: it is well-formed and so is everything inside. -/
def Sound (c : Content) : Prop := ∀ v ∈ c.parts, v.WellFormed

instance : DecidablePred Sound := fun c => inferInstanceAs (Decidable (∀ v ∈ c.parts, v.WellFormed))

/-- The text of a floating-point number is read as an equal number. -/
def ReadsBack (x : Binary64) : Prop :=
  ∃ y, read? (Content.float x).print = some (.float y) ∧ x.same y = true

instance (x : Binary64) : Decidable (ReadsBack x) :=
  decidable_of_iff ((read? (Content.float x).print).any (same (.float x)) = true) (by
    rw [Option.any_eq_true]
    refine ⟨fun ⟨c, hread, hsame⟩ => ?_, fun ⟨y, hread, hsame⟩ => ⟨.float y, hread, hsame⟩⟩
    cases c with
    | float y => exact ⟨y, hread, hsame⟩
    | _ => cases hsame)

/-- What the reader needs of each part to return it. -/
structure Legible (v : Content) : Prop where
  wellFormed : v.WellFormed
  float : ∀ x, v = .float x → ReadsBack x

theorem mem_trimZeros {c : Char} {ds : List Char} (h : c ∈ trimZeros ds) : c = '0' ∨ c ∈ ds := by
  unfold trimZeros at h
  split at h
  · exact .inl (List.mem_singleton.1 h)
  · right
    have hc := (List.dropWhile_suffix (· = '0')).subset (List.mem_reverse.1 h)
    exact List.mem_reverse.1 hc

section
variable {digits : List Char} (hdigits : ∀ c ∈ digits, isNumeral c = true)
include hdigits

theorem isNumeral_withPoint (count : Nat) : ∀ c ∈ withPoint digits count, isNumeral c = true := by
  intro c hc
  simp only [withPoint, List.mem_append, List.mem_cons, List.mem_replicate] at hc
  obtain (hc | ⟨-, rfl⟩) | rfl | hc := hc
  · exact hdigits c (List.mem_of_mem_take hc)
  · decide
  · decide
  · split at hc
    · obtain rfl := List.mem_singleton.1 hc
      decide
    · exact hdigits c (List.mem_of_mem_drop hc)

theorem isNumeral_placeDigits (exponent : Int) :
    ∀ c ∈ placeDigits digits exponent, isNumeral c = true := by
  have hzeros : ∀ n, ∀ c ∈ List.replicate n '0', isNumeral c = true := by
    intro n c hc
    obtain rfl := List.eq_of_mem_replicate hc
    decide
  simp only [placeDigits]
  split
  · have htail : ∀ c ∈ 'e' :: (if exponent < 0 then '-' else '+') :: decimalDigits exponent.natAbs,
        isNumeral c = true := by
      refine List.forall_mem_cons.2 ⟨by decide, List.forall_mem_cons.2 ⟨?_, ?_⟩⟩
      · split <;> decide
      · exact isNumeral_decimalDigits _
    split
    · obtain ⟨hfirst, hrest⟩ := List.forall_mem_cons.1 hdigits
      exact List.forall_mem_cons.2 ⟨hfirst, List.forall_mem_cons.2 ⟨by decide,
        List.forall_mem_append.2 ⟨hrest, htail⟩⟩⟩
    · exact List.forall_mem_append.2 ⟨hdigits, htail⟩
  · split
    · exact List.forall_mem_cons.2 ⟨by decide, List.forall_mem_cons.2 ⟨by decide,
        List.forall_mem_append.2 ⟨hzeros _, hdigits⟩⟩⟩
    · exact isNumeral_withPoint hdigits _

end

theorem isNumeral_renderFloat (x : Binary64) : ∀ c ∈ renderFloat x, isNumeral c = true := by
  have hmagnitude : ∀ c ∈ renderMagnitude x, isNumeral c = true := by
    unfold renderMagnitude
    split
    · exact List.all_eq_true.1 (by decide)
    · refine isNumeral_placeDigits (fun c hc => ?_) _
      obtain rfl | hc := mem_trimZeros hc
      · decide
      · exact isNumeral_decimalDigits _ c hc
  unfold renderFloat
  split
  · exact List.forall_mem_cons.2 ⟨by decide, hmagnitude⟩
  · exact hmagnitude

theorem isBlank_of_isNumeral {c : Char} (h : isNumeral c = true) : isBlank c = false := by
  rw [Bool.eq_false_iff]
  intro hb
  simp only [isBlank, Bool.or_eq_true, decide_eq_true_eq] at hb
  obtain ((rfl | rfl) | rfl) | rfl := hb <;> exact absurd h (by decide)

theorem skipBlanks_cons {c : Char} (h : isBlank c = false) (cs : List Char) :
    skipBlanks (c :: cs) = c :: cs := by
  simp [skipBlanks, h]

theorem readValue_numeral (budget depth : Nat) {c : Char} (h : isNumeral c = true)
    (cs : List Char) : readValue (budget + 1) depth (c :: cs) = readNumber (c :: cs) := by
  rw [readValue, skipBlanks_cons (isBlank_of_isNumeral h)]
  split
  all_goals
    first
    | rfl
    | rename_i heq
      cases heq
      exact absurd h (by decide)

theorem readNumber_of_read? {s : String} (hs : ∀ c ∈ s.toList, isNumeral c = true) {v : Content}
    (h : read? s = some v) : readNumber s.toList = some (v, []) := by
  obtain ⟨⟨v', left⟩, hvalue, h⟩ := Option.bind_eq_some_iff.1 h
  obtain ⟨hleft, rfl⟩ : skipBlanks left = [] ∧ v' = v := by simpa using h
  have hnumber : readNumber s.toList = some (v', left) := by
    cases hcs : s.toList with
    | nil =>
      rw [hcs] at hvalue
      cases hvalue
    | cons c cs =>
      rw [hcs] at hvalue hs
      rwa [readValue_numeral _ _ (hs c List.mem_cons_self)] at hvalue
  cases left with
  | nil => exact hnumber
  | cons c left =>
    have hc := hs c ((readNumber_suffix hnumber).subset List.mem_cons_self)
    rw [skipBlanks_cons (isBlank_of_isNumeral hc)] at hleft
    cases hleft

theorem readNumber_zero (negative : Bool) :
    readNumber (renderFloat ⟨negative, 0, -1074⟩) = some (.float ⟨negative, 0, -1074⟩, []) := by
  cases negative <;> decide +kernel

theorem readNumber_renderFloat {x : Binary64} (h : Legible (.float x)) {rest : List Char}
    (hrest : Stops rest) : readNumber (renderFloat x ++ rest) = some (.float x, rest) := by
  suffices hnumber : readNumber (renderFloat x) = some (.float x, []) from
    readNumber_append hrest hnumber
  obtain ⟨y, hread, hsame⟩ := h.float x rfl
  have htext : (Content.float x).print.toList = renderFloat x := String.toList_ofList
  have hnumber := readNumber_of_read? (htext ▸ isNumeral_renderFloat x) hread
  rw [htext] at hnumber
  simp only [Binary64.same, Bool.or_eq_true, decide_eq_true_eq, Bool.and_eq_true] at hsame
  obtain rfl | ⟨hzero, -⟩ := hsame
  · exact hnumber
  · obtain ⟨negative, mantissa, exponent⟩ := x
    obtain rfl : mantissa = 0 := by simpa [Binary64.isZero] using hzero
    obtain rfl : exponent = -1074 := h.wellFormed rfl
    exact readNumber_zero negative

def Opens (cs : List Char) : Prop := ∃ c rest, cs = c :: rest ∧ isBlank c = false ∧ c ≠ ']'

theorem Opens.append {cs : List Char} (h : Opens cs) (rest : List Char) : Opens (cs ++ rest) := by
  obtain ⟨c, left, rfl, hc⟩ := h
  exact ⟨c, left ++ rest, rfl, hc⟩

theorem opens_numerals {cs : List Char} (hne : cs ≠ []) (h : ∀ c ∈ cs, isNumeral c = true) :
    Opens cs := by
  cases cs with
  | nil => exact absurd rfl hne
  | cons c cs =>
    have hc := h c List.mem_cons_self
    refine ⟨c, cs, rfl, isBlank_of_isNumeral hc, ?_⟩
    rintro rfl
    exact absurd hc (by decide)

theorem isNumeral_renderInt (n : Int) : ∀ c ∈ renderInt n, isNumeral c = true := by
  cases n with
  | ofNat n => exact isNumeral_decimalDigits n
  | negSucc n => exact List.forall_mem_cons.2 ⟨by decide, isNumeral_decimalDigits (n + 1)⟩

theorem renderInt_ne_nil (n : Int) : renderInt n ≠ [] := by
  cases n with
  | ofNat n => exact Nat.toDigits_ne_nil
  | negSucc n => exact List.cons_ne_nil _ _

theorem renderFloat_ne_nil {x : Binary64} (h : Legible (.float x)) : renderFloat x ≠ [] := by
  intro hx
  have hread := readNumber_renderFloat h stops_nil
  rw [hx] at hread
  cases hread

theorem opens_render {c : Content} (h : ∀ v ∈ c.parts, Legible v) : Opens (render c) := by
  cases c with
  | null => exact ⟨'n', _, rfl, by decide⟩
  | bool b => cases b <;> exact ⟨_, _, rfl, by decide⟩
  | int n => exact opens_numerals (renderInt_ne_nil n) (isNumeral_renderInt n)
  | float x =>
    have hx := h (.float x) List.mem_cons_self
    exact opens_numerals (renderFloat_ne_nil hx) (isNumeral_renderFloat x)
  | text s => exact ⟨'"', _, rfl, by decide⟩
  | array items => exact ⟨'[', _, rfl, by decide⟩
  | object fields => exact ⟨'{', _, rfl, by decide⟩

theorem opens_renderItems {item : Content} {rest : List Content}
    (h : ∀ v ∈ item.parts, Legible v) : Opens (renderItems (item :: rest)) := by
  cases rest with
  | nil => exact opens_render h
  | cons => exact (opens_render h).append _

theorem readText_renderText (s : String) (rest : List Char) :
    readText ((s.toList.flatMap escape ++ '"' :: rest).length + 1)
      (s.toList.flatMap escape ++ '"' :: rest) = some (s.toList, rest) := by
  refine readText_escaped ?_ rest
  have hlength := length_le_escaped s.toList
  rw [List.length_append]
  omega

theorem ofFields_of_ascending {fields : List (String × Content)} (h : Ascending fields) :
    ofFields fields = .object fields := by
  have hfields : Table.ofList fields = ⟨fields, h⟩ := Table.ofList_entries ⟨fields, h⟩
  rw [ofFields, hfields]

theorem readValue_numerals {cs : List Char} (hne : cs ≠ [])
    (h : ∀ c ∈ cs, isNumeral c = true) {budget : Nat} (hbudget : cs.length ≤ budget) (depth : Nat)
    (rest : List Char) : readValue budget depth (cs ++ rest) = readNumber (cs ++ rest) := by
  cases cs with
  | nil => exact absurd rfl hne
  | cons c cs =>
    obtain ⟨budget, rfl⟩ := Nat.exists_eq_add_of_lt (Nat.lt_of_lt_of_le (Nat.succ_pos _) hbudget)
    rw [Nat.zero_add, List.cons_append, readValue_numeral _ _ (h c List.mem_cons_self)]

theorem readValue_array (budget depth : Nat) {cs : List Char} (h : Opens cs) :
    readValue (budget + 1) (depth + 1) ('[' :: cs) =
      (readItems budget depth cs).map fun found => (array found.1, found.2) := by
  obtain ⟨c, cs, rfl, hblank, hclosing⟩ := h
  rw [readValue, skipBlanks_cons (by decide)]
  simp only [skipBlanks_cons hblank, Nat.succ_ne_zero, if_false, Nat.add_sub_cancel]
  split
  · rename_i heq
    cases heq
    exact absurd rfl hclosing
  · rfl

theorem readValue_object (budget depth : Nat) {fields : List (String × Content)}
    (h : fields ≠ []) (rest : List Char) :
    readValue (budget + 1) (depth + 1) ('{' :: (renderFields fields ++ rest)) =
      (readFields budget depth (renderFields fields ++ rest)).map fun found =>
        (ofFields found.1, found.2) := by
  match fields with
  | [] => exact absurd rfl h
  | [(name, value)] => rfl
  | (name, value) :: next :: more => rfl

theorem readItems_last {budget depth : Nat} {cs rest : List Char} {item : Content}
    (h : readValue budget depth cs = some (item, ']' :: rest)) :
    readItems (budget + 1) depth cs = some ([item], rest) := by
  simp only [readItems, h, Option.bind_eq_bind, Option.bind_some]
  rfl

theorem readItems_more {budget depth : Nat} {cs rest left : List Char} {item : Content}
    {items : List Content} (h : readValue budget depth cs = some (item, ',' :: rest))
    (hitems : readItems budget depth rest = some (items, left)) :
    readItems (budget + 1) depth cs = some (item :: items, left) := by
  simp only [readItems, h, Option.bind_eq_bind, Option.bind_some]
  change (readItems budget depth rest).bind _ = _
  rw [hitems]
  rfl

theorem readFields_name (budget depth : Nat) (name : String) (cs : List Char) :
    readFields (budget + 1) depth (renderText name ++ ':' :: cs) =
      (readValue budget depth cs).bind fun found =>
        match skipBlanks found.2 with
        | ',' :: rest => (readFields budget depth rest).map fun more =>
          ((name, found.1) :: more.1, more.2)
        | '}' :: rest => some ([(name, found.1)], rest)
        | _ => none := by
  have htext : renderText name ++ ':' :: cs =
      '"' :: (name.toList.flatMap escape ++ '"' :: ':' :: cs) := by
    simp [renderText]
  rw [htext, readFields, skipBlanks_cons (by decide)]
  simp only [readText_renderText, Option.bind_eq_bind, Option.bind_some, String.ofList_toList]
  rw [skipBlanks_cons (by decide)]
  simp only [Option.map_eq_bind]
  rfl

theorem readFields_last {budget depth : Nat} {name : String} {cs rest : List Char}
    {value : Content} (h : readValue budget depth cs = some (value, '}' :: rest)) :
    readFields (budget + 1) depth (renderText name ++ ':' :: cs) = some ([(name, value)], rest) := by
  rw [readFields_name, h]
  rfl

theorem readFields_more {budget depth : Nat} {name : String} {cs rest left : List Char}
    {value : Content} {fields : List (String × Content)}
    (h : readValue budget depth cs = some (value, ',' :: rest))
    (hfields : readFields budget depth rest = some (fields, left)) :
    readFields (budget + 1) depth (renderText name ++ ':' :: cs) =
      some ((name, value) :: fields, left) := by
  rw [readFields_name, h]
  change (readFields budget depth rest).map _ = _
  rw [hfields]
  rfl

mutual

theorem readValue_render : ∀ (c : Content) {budget depth : Nat} {rest : List Char},
    (∀ v ∈ c.parts, Legible v) → c.depth ≤ depth → (render c).length ≤ budget → Stops rest →
    readValue budget depth (render c ++ rest) = some (c, rest)
  | .null, budget + 1, depth, rest, _, _, _, _ => rfl
  | .bool true, budget + 1, depth, rest, _, _, _, _ => rfl
  | .bool false, budget + 1, depth, rest, _, _, _, _ => rfl
  | .int n, budget, depth, rest, hparts, _, hbudget, hrest => by
    rw [render] at hbudget ⊢
    rw [readValue_numerals (renderInt_ne_nil n) (isNumeral_renderInt n) hbudget]
    exact readNumber_renderInt (hparts (.int n) List.mem_cons_self).wellFormed hrest
  | .float x, budget, depth, rest, hparts, _, hbudget, hrest => by
    have hx := hparts (.float x) List.mem_cons_self
    rw [render] at hbudget ⊢
    rw [readValue_numerals (renderFloat_ne_nil hx) (isNumeral_renderFloat x) hbudget]
    exact readNumber_renderFloat hx hrest
  | .text s, budget + 1, depth, rest, _, _, _, _ => by
    have htext : render (.text s) ++ rest = '"' :: (s.toList.flatMap escape ++ '"' :: rest) := by
      simp [render, renderText]
    rw [htext]
    change (readText _ _).map _ = _
    rw [readText_renderText]
    simp
  | .array [], budget + 1, depth + 1, rest, _, _, _, _ => rfl
  | .array (item :: items), budget + 1, depth + 1, rest, hparts, hdepth, hbudget, _ => by
    have hbelow := (List.forall_mem_cons.1 hparts).2
    have hfirst := (List.forall_mem_append.1 hbelow).1
    have hlength : (renderItems (item :: items)).length < budget := by
      simp [render] at hbudget
      omega
    have hitems : readItems budget depth (renderItems (item :: items) ++ ']' :: rest) =
        some (item :: items, rest) :=
      readItems_render (item :: items) (List.cons_ne_nil _ _) hbelow
        (Nat.le_of_succ_le_succ hdepth) hlength
    have htext : render (.array (item :: items)) ++ rest =
        '[' :: (renderItems (item :: items) ++ ']' :: rest) := by
      simp [render]
    rw [htext, readValue_array _ _ ((opens_renderItems hfirst).append _), hitems]
    rfl
  | .object [], budget + 1, depth + 1, rest, _, _, _, _ => rfl
  | .object (field :: fields), budget + 1, depth + 1, rest, hparts, hdepth, hbudget, _ => by
    obtain ⟨hobject, hbelow⟩ := List.forall_mem_cons.1 hparts
    have hlength : (renderFields (field :: fields)).length < budget := by
      simp [render] at hbudget
      omega
    have hfields : readFields budget depth (renderFields (field :: fields) ++ '}' :: rest) =
        some (field :: fields, rest) :=
      readFields_render (field :: fields) (List.cons_ne_nil _ _) hbelow
        (Nat.le_of_succ_le_succ hdepth) hlength
    have htext : render (.object (field :: fields)) ++ rest =
        '{' :: (renderFields (field :: fields) ++ '}' :: rest) := by
      simp [render]
    rw [htext, readValue_object _ _ (List.cons_ne_nil _ _), hfields]
    simp only [Option.map_some, ofFields_of_ascending hobject.wellFormed]

theorem readItems_render : ∀ (items : List Content) {budget depth : Nat} {rest : List Char},
    items ≠ [] → (∀ v ∈ partsItems items, Legible v) → depthItems items ≤ depth →
    (renderItems items).length < budget →
    readItems budget depth (renderItems items ++ ']' :: rest) = some (items, rest)
  | [item], budget + 1, depth, rest, _, hparts, hdepth, hbudget => by
    have hitem := (List.forall_mem_append.1 hparts).1
    exact readItems_last (readValue_render item hitem (Nat.max_le.1 hdepth).1
      (Nat.le_of_lt_succ hbudget) (.cons (by decide) rest))
  | item :: next :: items, budget + 1, depth, rest, _, hparts, hdepth, hbudget => by
    obtain ⟨hitem, hitems⟩ := List.forall_mem_append.1 hparts
    have hlength : (render item).length + (renderItems (next :: items)).length < budget := by
      simp [renderItems] at hbudget
      omega
    have htext : renderItems (item :: next :: items) ++ ']' :: rest =
        render item ++ ',' :: (renderItems (next :: items) ++ ']' :: rest) := by
      simp [renderItems]
    rw [htext]
    exact readItems_more
      (readValue_render item hitem (Nat.max_le.1 hdepth).1 (by omega)
        (.cons (by decide) _))
      (readItems_render (next :: items) (List.cons_ne_nil _ _) hitems
        (Nat.max_le.1 hdepth).2 (by omega))

theorem readFields_render : ∀ (fields : List (String × Content)) {budget depth : Nat}
    {rest : List Char}, fields ≠ [] → (∀ v ∈ partsFields fields, Legible v) →
    depthFields fields ≤ depth → (renderFields fields).length < budget →
    readFields budget depth (renderFields fields ++ '}' :: rest) = some (fields, rest)
  | [(name, value)], budget + 1, depth, rest, _, hparts, hdepth, hbudget => by
    have hvalue := (List.forall_mem_append.1 hparts).1
    have hlength : (render value).length ≤ budget := by
      simp [renderFields] at hbudget
      omega
    have htext : renderFields [(name, value)] ++ '}' :: rest =
        renderText name ++ ':' :: (render value ++ '}' :: rest) := by
      simp [renderFields]
    rw [htext]
    exact readFields_last (readValue_render value hvalue (Nat.max_le.1 hdepth).1 hlength
      (.cons (by decide) rest))
  | (name, value) :: next :: fields, budget + 1, depth, rest, _, hparts, hdepth, hbudget => by
    obtain ⟨hvalue, hfields⟩ := List.forall_mem_append.1 hparts
    have hlength : (render value).length + (renderFields (next :: fields)).length < budget := by
      simp [renderFields] at hbudget
      omega
    have htext : renderFields ((name, value) :: next :: fields) ++ '}' :: rest =
        renderText name ++ ':' :: (render value ++ ',' ::
          (renderFields (next :: fields) ++ '}' :: rest)) := by
      simp [renderFields]
    rw [htext]
    exact readFields_more
      (readValue_render value hvalue (Nat.max_le.1 hdepth).1 (by omega)
        (.cons (by decide) _))
      (readFields_render (next :: fields) (List.cons_ne_nil _ _) hfields
        (Nat.max_le.1 hdepth).2 (by omega))

end

theorem read?_print {c : Content} (hparts : ∀ v ∈ c.parts, Legible v) (hdepth : c.depth ≤ maxDepth) :
    read? c.print = some c := by
  have hbudget : (render c).length ≤ 2 * (render c).length + 2 := by omega
  have hread := readValue_render c hparts hdepth hbudget stops_nil
  rw [List.append_nil] at hread
  have htext : c.print.toList = render c := String.toList_ofList
  simp only [read?, htext, hread, Option.bind_eq_bind, Option.bind_some]
  rfl

end RoomSync.Content
