namespace RoomSync.Text

variable {separator : Char}

def splitFirst? (separator : Char) : List Char → Option (List Char × List Char)
  | [] => none
  | c :: rest =>
    if c = separator then some ([], rest)
    else (splitFirst? separator rest).map fun (before, after) => (c :: before, after)

/-- The pieces between the occurrences of a character; there is always at least one. -/
def pieces (separator : Char) : List Char → List (List Char)
  | [] => [[]]
  | c :: rest =>
    if c = separator then [] :: pieces separator rest
    else (pieces separator rest).modifyHead (c :: ·)

def join (separator : Char) : List (List Char) → List Char
  | [] => []
  | [piece] => piece
  | piece :: others => piece ++ separator :: join separator others

theorem splitFirst?_append {before : List Char} (after : List Char) (h : separator ∉ before) :
    splitFirst? separator (before ++ separator :: after) = some (before, after) := by
  induction before with
  | nil => simp [splitFirst?]
  | cons c before ih =>
    simp only [List.mem_cons, not_or] at h
    simp [splitFirst?, Ne.symm h.1, ih h.2]

theorem eq_append_of_splitFirst? {cs before after : List Char}
    (h : splitFirst? separator cs = some (before, after)) :
    cs = before ++ separator :: after ∧ separator ∉ before := by
  induction cs generalizing before with
  | nil => simp [splitFirst?] at h
  | cons c cs ih =>
    simp only [splitFirst?] at h
    split at h
    · rename_i hc
      obtain ⟨rfl, rfl⟩ : [] = before ∧ cs = after := by simpa using h
      simp [hc]
    · rename_i hc
      obtain ⟨⟨b, a⟩, hb, he⟩ := Option.map_eq_some_iff.1 h
      obtain ⟨rfl, rfl⟩ : c :: b = before ∧ a = after := by simpa using he
      obtain ⟨rfl, hmem⟩ := ih hb
      exact ⟨rfl, by simp [Ne.symm hc, hmem]⟩

theorem splitFirst?_eq_some_iff {cs before after : List Char} :
    splitFirst? separator cs = some (before, after) ↔
      cs = before ++ separator :: after ∧ separator ∉ before :=
  ⟨eq_append_of_splitFirst?, fun ⟨hcs, h⟩ => hcs ▸ splitFirst?_append after h⟩

theorem splitFirst?_eq_none_iff {cs : List Char} :
    splitFirst? separator cs = none ↔ separator ∉ cs := by
  induction cs with
  | nil => simp [splitFirst?]
  | cons c cs ih =>
    by_cases hc : c = separator
    · simp [splitFirst?, hc]
    · simp [splitFirst?, hc, Ne.symm hc, ih]

theorem pieces_ne_nil (cs : List Char) : pieces separator cs ≠ [] := by
  induction cs with
  | nil => simp [pieces]
  | cons c cs ih =>
    simp only [pieces]
    split
    · simp
    · simpa using ih

theorem pieces_of_notMem {cs : List Char} (h : separator ∉ cs) : pieces separator cs = [cs] := by
  induction cs with
  | nil => rfl
  | cons c cs ih =>
    simp only [List.mem_cons, not_or] at h
    simp [pieces, Ne.symm h.1, ih h.2]

theorem pieces_append {piece : List Char} (rest : List Char) (h : separator ∉ piece) :
    pieces separator (piece ++ separator :: rest) = piece :: pieces separator rest := by
  induction piece with
  | nil => simp [pieces]
  | cons c piece ih =>
    simp only [List.mem_cons, not_or] at h
    simp [pieces, Ne.symm h.1, ih h.2]

theorem notMem_of_mem_pieces {cs piece : List Char} (h : piece ∈ pieces separator cs) :
    separator ∉ piece := by
  induction cs generalizing piece with
  | nil => simp_all [pieces]
  | cons c cs ih =>
    simp only [pieces] at h
    split at h
    · obtain rfl | h := List.mem_cons.1 h
      · simp
      · exact ih h
    · rename_i hc
      cases hp : pieces separator cs with
      | nil => exact absurd hp (pieces_ne_nil cs)
      | cons first others =>
        rw [hp] at h ih
        obtain rfl | h := List.mem_cons.1 h
        · simp [Ne.symm hc, ih List.mem_cons_self]
        · exact ih (List.mem_cons_of_mem _ h)

theorem join_cons_of_ne_nil (piece : List Char) {others : List (List Char)} (h : others ≠ []) :
    join separator (piece :: others) = piece ++ separator :: join separator others := by
  cases others with
  | nil => exact absurd rfl h
  | cons _ _ => rfl

theorem join_modifyHead_cons (c : Char) {ps : List (List Char)} (h : ps ≠ []) :
    join separator (ps.modifyHead (c :: ·)) = c :: join separator ps := by
  cases ps with
  | nil => exact absurd rfl h
  | cons piece others => cases others <;> rfl

theorem join_pieces (cs : List Char) : join separator (pieces separator cs) = cs := by
  induction cs with
  | nil => rfl
  | cons c cs ih =>
    simp only [pieces]
    split
    · rename_i hc
      rw [join_cons_of_ne_nil _ (pieces_ne_nil cs), ih, hc, List.nil_append]
    · rw [join_modifyHead_cons _ (pieces_ne_nil cs), ih]

theorem pieces_join {ps : List (List Char)} (hne : ps ≠ []) (h : ∀ p ∈ ps, separator ∉ p) :
    pieces separator (join separator ps) = ps := by
  induction ps with
  | nil => exact absurd rfl hne
  | cons piece others ih =>
    have hpiece := h piece List.mem_cons_self
    by_cases ho : others = []
    · subst ho
      exact pieces_of_notMem hpiece
    · rw [join_cons_of_ne_nil _ ho, pieces_append _ hpiece,
        ih ho fun p hp => h p (List.mem_cons_of_mem _ hp)]

end RoomSync.Text
