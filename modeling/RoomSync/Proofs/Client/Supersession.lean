import RoomSync.Proofs.Client.Caller
import RoomSync.Proofs.Draft.Alike

namespace RoomSync

/-- Whether a message comes on a connection that is not the newest one of those made. -/
def Occurrence.Late (made : Nat) : Occurrence → Prop
  | .hears i _ => i + 1 < made
  | _ => False

instance (made : Nat) : (o : Occurrence) → Decidable (o.Late made)
  | .hears i _ => inferInstanceAs (Decidable (i + 1 < made))
  | .pushes _ | .appears _ | .pings | .dials | .getsThrough | .getsNowhere | .hangsUp
  | .takesEvents | .losesTouch _ | .writes _ | .cannotWrite _ => isFalse id

namespace Caller.Core

variable {k k' k'' : Core} {made : Nat}

/-- Cores that differ in their working copies only, and these are alike. -/
def Alike (k k' : Core) : Prop := ∃ draft, k.draft.Alike draft ∧ k' = { k with draft }

theorem Alike.refl (k : Core) : k.Alike k := ⟨k.draft, .refl _, rfl⟩

theorem Alike.symm (h : k.Alike k') : k'.Alike k := by
  obtain ⟨draft, hd, rfl⟩ := h
  exact ⟨k.draft, hd.symm, rfl⟩

theorem Alike.trans (h : k.Alike k') (h' : k'.Alike k'') : k.Alike k'' := by
  obtain ⟨draft, hd, rfl⟩ := h
  obtain ⟨draft', hd', rfl⟩ := h'
  exact ⟨draft', hd.trans hd', rfl⟩

theorem Alike.face (h : k.Alike k') : k'.face = k.face := by
  obtain ⟨draft, hd, rfl⟩ := h
  exact Prod.ext hd.clock hd.values

theorem Alike.step (h : k.Alike k') (o : Occurrence) : (k.step o).Alike (k'.step o) := by
  obtain ⟨draft, hd, rfl⟩ := h
  cases o with
  | pushes mutations => exact ⟨_, hd.push mutations, rfl⟩
  | appears content =>
    by_cases hs : k.state = .connected
    · simp only [Core.step, if_pos hs]
      exact ⟨_, hd.allot, rfl⟩
    · simp only [Core.step, if_neg hs]
      exact ⟨_, hd, rfl⟩
  | getsThrough | getsNowhere =>
    by_cases hdialing : k.dialing = true
    · simp only [Core.step, if_pos hdialing]
      exact ⟨_, hd, rfl⟩
    · simp only [Core.step, if_neg hdialing]
      exact ⟨_, hd, rfl⟩
  | hears i msg =>
    simp only [Core.step, hears]
    split
    · exact ⟨_, hd.fold msg, rfl⟩
    · exact ⟨_, hd, rfl⟩
  | losesTouch i =>
    simp only [Core.step, losesTouch]
    split <;> exact ⟨_, hd, rfl⟩
  | _ => exact ⟨_, hd, rfl⟩

/-- A late message does nothing but what it does to the working copy. -/
theorem Sound.hears_late (h : k.Sound) {i : Nat} (hi : i + 1 < k.generations.length)
    (msg : ServerMessage) : k.hears i msg = k ∨
      k.hears i msg = { k with draft := (k.draft.fold msg).draft } := by
  rw [hears]
  split
  · next g hl =>
    have hne : g ≠ k.generation := Nat.ne_of_lt (h.lt_generation hi hl)
    refine .inr ?_
    cases msg <;> simp only [if_neg hne]
  · exact .inl rfl

theorem Sound.alike_late (h : k.Sound) {i : Nat} (hi : i + 1 < k.generations.length)
    {msg : ServerMessage} (hd : k.draft.Alike (k.hears i msg).draft) : k.Alike (k.hears i msg) := by
  obtain he | he := h.hears_late hi msg
  · rw [he]
    exact .refl k
  · rw [he] at hd ⊢
    exact ⟨_, hd, rfl⟩

/-- As long as late messages leave the working copy as good as it was, nobody can tell whether they
come. -/
theorem Alike.run (h : k.Alike k') (hs : k.Sound) (hmade : made ≤ k.generations.length)
    {later : List Occurrence}
    (hspares : ∀ before i msg rest, later = before ++ .hears i msg :: rest → i + 1 < made →
      (k.run before).draft.Alike ((k.run before).hears i msg).draft) :
    (k.run later).Alike (k'.run (later.filter fun o => ¬o.Late made)) := by
  induction later generalizing k k' with
  | nil => exact h
  | cons o rest ih =>
    have hlength := Nat.le_trans hmade (k.length_generations_step o)
    have hrest : ∀ before i msg more, rest = before ++ .hears i msg :: more → i + 1 < made →
        ((k.step o).run before).draft.Alike (((k.step o).run before).hears i msg).draft :=
      fun before i msg more he => hspares (o :: before) i msg more (congrArg (o :: ·) he)
    by_cases hlate : o.Late made
    · rw [List.filter_cons_of_neg (by simpa using hlate)]
      cases o with
      | hears i msg =>
        have hd := hs.alike_late (Nat.lt_of_lt_of_le hlate hmade) (hspares [] i msg rest rfl hlate)
        exact ih (hd.symm.trans h) (hs.step _) hlength hrest
      | _ => exact hlate.elim
    · rw [List.filter_cons_of_pos (by simpa using hlate)]
      exact ih (h.step o) (hs.step o) hlength hrest

theorem draft_run_hears {n g : Nat} (hl : k.links[n]? = some (g, true)) (msgs : List ServerMessage) :
    (k.run (msgs.map (.hears n))).draft = k.draft.takeAll (msgs.map .receive) := by
  induction msgs generalizing k with
  | nil => rfl
  | cons msg rest ih =>
    have hk : ∃ state, k.hears n msg = { k with draft := (k.draft.fold msg).draft, state } := by
      rw [hears, hl]
      exact ⟨_, rfl⟩
    obtain ⟨state, he⟩ := hk
    change ((k.hears n msg).run (rest.map (.hears n))).draft = _
    rw [he]
    exact ih (k := { k with draft := (k.draft.fold msg).draft, state }) hl

def redial (k : Core) (msgs : List ServerMessage) : List Occurrence :=
  .dials :: .getsThrough :: msgs.map (.hears k.links.length)

theorem draft_run_redial (k : Core) (msgs : List ServerMessage) :
    (k.run (k.redial msgs)).draft = k.draft.takeAll (msgs.map .receive) := by
  let k₁ : Core := { k with
    dialing := false, state := .connecting, generation := k.generation + 1
    links := k.links ++ [(k.generation + 1, true)] }
  have hlast : k₁.links[k.links.length]? = some (k.generation + 1, true) :=
    List.getElem?_concat_length
  exact draft_run_hears hlast msgs

/-- A late message that does not leave the working copy as good as it was is given away, at once or
by what comes next. -/
theorem Sound.alike_of_faces (hs : k.Sound) {i : Nat} (hi : i + 1 < k.generations.length)
    {msg : ServerMessage} (h : k.Alike k')
    (hfaces : ∀ msgs, ((k.hears i msg).run (k.redial msgs)).face = (k'.run (k.redial msgs)).face)
    (hface : (k.hears i msg).face = k'.face) : k.draft.Alike (k.hears i msg).draft := by
  obtain he | he := hs.hears_late hi msg
  · rw [he]
    exact .refl _
  · rw [he] at hface hfaces ⊢
    have hface := hface.trans h.face
    refine ⟨congrArg Prod.fst hface, congrArg Prod.snd hface, ?_, k.draft.nextPushId_fold msg⟩
    refine Decidable.byContradiction fun hne => ?_
    obtain ⟨p, hp, hwrites, hlost⟩ := Draft.exists_settled hne
    obtain ⟨msgs, hmsgs⟩ := Draft.exists_telling hs.numbered hp hwrites
      (fun q hq => (List.mem_filter.1 (k.draft.pending_fold msg ▸ hq)).1) hlost
    obtain ⟨draft, hd, rfl⟩ := h
    have hvalues := congrArg Prod.snd (hfaces msgs)
    have h₁ := draft_run_redial { k with draft := (k.draft.fold msg).draft } msgs
    have h₂ := draft_run_redial { k with draft } msgs
    refine hmsgs ?_
    calc ((k.draft.fold msg).draft.takeAll (msgs.map .receive)).replica.values
      _ = (({ k with draft := (k.draft.fold msg).draft } : Core).run (k.redial msgs)).face.2 :=
        (congrArg (·.replica.values) h₁).symm
      _ = (({ k with draft } : Core).run (k.redial msgs)).face.2 := hvalues
      _ = (draft.takeAll (msgs.map .receive)).replica.values := congrArg (·.replica.values) h₂
      _ = (k.draft.takeAll (msgs.map .receive)).replica.values := (hd.takeAll _).values

theorem not_late_redial (k : Core) (hmade : made ≤ k.generations.length)
    (msgs : List ServerMessage) : ∀ o ∈ k.redial msgs, ¬o.Late made := by
  rw [generations, List.length_map] at hmade
  intro o ho
  obtain rfl | ho := List.mem_cons.1 ho
  · exact id
  obtain rfl | ho := List.mem_cons.1 ho
  · exact id
  obtain ⟨msg, -, rfl⟩ := List.mem_map.1 ho
  exact fun hlate => by
    have hlate : k.links.length + 1 < made := hlate
    omega

theorem filter_late_eq_self {more : List Occurrence} (h : ∀ o ∈ more, ¬o.Late made) :
    more.filter (fun o => ¬o.Late made) = more :=
  List.filter_eq_self.2 fun o ho => by simpa using h o ho

theorem spares_of_faces (hs : k.Sound) (hmade : made ≤ k.generations.length) (h : k.Alike k')
    {later : List Occurrence}
    (hfaces : ∀ done rest more, later = done ++ rest → (∀ o ∈ more, ¬o.Late made) →
      (k.run (done ++ more)).face = (k'.run ((done ++ more).filter fun o => ¬o.Late made)).face)
    {before : List Occurrence} {i : Nat} {msg : ServerMessage} {rest : List Occurrence}
    (he : later = before ++ .hears i msg :: rest) (hi : i + 1 < made) :
    (k.run before).draft.Alike ((k.run before).hears i msg).draft := by
  induction later generalizing k k' before with
  | nil => cases before <;> cases he
  | cons o tail ih =>
    have hlength := Nat.le_trans hmade (k.length_generations_step o)
    by_cases hlate : o.Late made
    · have hdrop : ∀ more : List Occurrence, (o :: more).filter (fun o => ¬o.Late made) =
          more.filter fun o => ¬o.Late made := fun more =>
        List.filter_cons_of_neg (by simpa using hlate)
      cases o with
      | hears j msg₀ =>
        have hnext : ∀ more, (∀ o ∈ more, ¬o.Late made) →
            ((k.hears j msg₀).run more).face = (k'.run more).face := fun more hmore => by
          have hface := hfaces [.hears j msg₀] tail more rfl hmore
          rwa [List.singleton_append, hdrop, filter_late_eq_self hmore] at hface
        have hj := Nat.lt_of_lt_of_le hlate hmade
        have hspares := hs.alike_of_faces hj h
          (fun msgs => hnext _ (k.not_late_redial hmade msgs)) (hnext [] nofun)
        cases before with
        | nil =>
          cases he
          exact hspares
        | cons _ before =>
          obtain ⟨rfl, rfl⟩ := List.cons.inj he
          refine ih (hs.step _) hlength ((hs.alike_late hj hspares).symm.trans h) ?_ rfl
          intro done more extra he hextra
          have hface := hfaces (.hears j msg₀ :: done) more extra (congrArg (_ :: ·) he) hextra
          rwa [List.cons_append, hdrop] at hface
      | _ => exact hlate.elim
    · cases before with
      | nil =>
        cases he
        exact absurd hi hlate
      | cons _ before =>
        obtain ⟨rfl, rfl⟩ := List.cons.inj he
        refine ih (hs.step o) hlength (h.step o) ?_ rfl
        intro done more extra he hextra
        have hface := hfaces (o :: done) more extra (congrArg (_ :: ·) he) hextra
        rwa [List.cons_append, List.filter_cons_of_pos (by simpa using hlate)] at hface

end Caller.Core

namespace Caller

/-- From any moment on, the messages of connections that are not the newest one at that moment are
late. Whatever comes, the replica shows what it would show without them, exactly if each of them leaves
the working copy as good as it was. -/
theorem superseded_spares_iff (url documentId key : String) (schema : Schema)
    (earlier later : List Occurrence) :
    let c := (start url documentId key schema).run earlier
    let made := c.client.connections.length
    (∀ done rest more, later = done ++ rest → (∀ o ∈ more, ¬o.Late made) →
        (c.run (done ++ more)).face =
          (c.run ((done ++ more).filter fun o => ¬o.Late made)).face) ↔
      ∀ before i msg rest, later = before ++ .hears i msg :: rest → i + 1 < made →
        (c.run before).client.draft.Alike ((c.run before).client.hears i msg).draft := by
  intro c made
  have hs : c.core.Sound := by
    rw [core_run]
    exact (Core.sound_start url documentId key schema).run earlier
  have hmade : made ≤ c.core.generations.length := Nat.le_of_eq c.core_length.symm
  have hface : ∀ occurrences, (c.run occurrences).face = (c.core.run occurrences).face :=
    fun occurrences => congrArg Core.face (c.core_run occurrences)
  have hspares : ∀ before i msg,
      (c.run before).client.draft.Alike ((c.run before).client.hears i msg).draft ↔
        (c.core.run before).draft.Alike ((c.core.run before).hears i msg).draft := by
    intro before i msg
    rw [core_hears_draft, core_run]
    exact iff_of_eq (congrArg (Draft.Alike · _) (congrArg Core.draft (c.core_run before)))
  simp only [hface, hspares]
  refine ⟨fun hfaces before i msg rest he hi => ?_, fun hall done rest more he hmore => ?_⟩
  · exact Core.spares_of_faces hs hmade (.refl _) hfaces he hi
  · refine ((Core.Alike.refl c.core).run hs hmade fun before i msg after hsplit hi => ?_).face.symm
    have hlate : .hears i msg ∉ more := fun hmem => hmore _ hmem hi
    obtain ⟨between, rfl, hmiddle⟩ | ⟨between, rfl, hmiddle⟩ := List.append_eq_append_iff.1 hsplit
    · exact absurd (hmiddle ▸ List.mem_append_right _ List.mem_cons_self) hlate
    · cases between with
      | nil =>
        obtain rfl : .hears i msg :: after = more := hmiddle
        exact absurd List.mem_cons_self hlate
      | cons _ between =>
        obtain ⟨rfl, -⟩ := List.cons.inj hmiddle
        exact hall before i msg (between ++ rest) (by rw [he, List.append_assoc]; rfl) hi

/-- The newest connection is accepted at clock 5, then the older one is heard to have been accepted
at clock 3. The next patch on the newest connection is dropped as it starts too late. -/
theorem late_state_takes_back :
    let record : Record := ⟨"n", "note", .object [], 5⟩
    let changed : Record := ⟨"m", "note", .object [], 6⟩
    let accepted : Occurrence := .hears 1 (.connected ⟨5, 1, true, .full [record]⟩)
    let late : Occurrence := .hears 0 (.connected ⟨3, 1, false, .full []⟩)
    let patch : Occurrence := .hears 1 (.data [.patch ⟨5, 6, Changes.put .empty changed⟩])
    let c := (start "ws://host" "d" "k" (.base 1)).run
      [.dials, .getsThrough, .dials, .getsThrough, accepted]
    late.Late c.client.connections.length ∧
      (c.run [late]).face = (3, .empty) ∧ (c.run [late, patch]).face = (3, .empty) ∧
      (c.run []).face = (5, .ofList [("n", record.value)]) ∧
      (c.run [patch]).face = (6, .ofList [("n", record.value), ("m", changed.value)]) := by
  decide +kernel

end Caller

end RoomSync
