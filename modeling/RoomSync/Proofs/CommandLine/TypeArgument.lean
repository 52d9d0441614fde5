import Mathlib.Data.Set.Function
import RoomSync.CommandLine.TypeArgument

namespace RoomSync

open Text

theorem Except.exists_of_bind_eq_ok {ε α β : Type} {x : Except ε α} {f : α → Except ε β} {b : β}
    (h : x >>= f = .ok b) : ∃ a, x = .ok a ∧ f a = .ok b := by
  cases x with
  | ok a => exact ⟨a, rfl, h⟩
  | error e => cases h

theorem FieldKind.comma_notMem_name (kind : FieldKind) : ',' ∉ kind.name.toList := by
  cases kind <;> decide

namespace Field

structure Writable (field : Field) : Prop where
  named : field.name ≠ ""
  noEquals : '=' ∉ field.name.toList
  noComma : ',' ∉ field.name.toList

theorem Writable.comma_notMem {field : Field} (h : field.Writable) : ',' ∉ field.toPiece := by
  simp [toPiece, h.noComma, field.kind.comma_notMem_name]

theorem ofPiece_toPiece {field : Field} (h : field.Writable) (argument : String) :
    ofPiece argument field.toPiece = .ok field := by
  have hname : field.name.toList ≠ [] := fun hn => h.named (String.toList_eq_nil_iff.1 hn)
  rw [ofPiece, toPiece, splitFirst?_append _ h.noEquals]
  simp [hname, FieldKind.ofName?_name]

theorem toPiece_of_ofPiece {argument : String} {piece : List Char} {field : Field}
    (hcomma : ',' ∉ piece) (h : ofPiece argument piece = .ok field) :
    field.Writable ∧ field.toPiece = piece := by
  unfold ofPiece at h
  split at h
  · cases h
  · rename_i name kind hsplit
    obtain ⟨rfl, hequals⟩ := splitFirst?_eq_some_iff.1 hsplit
    split at h
    · cases h
    · rename_i hname
      split at h
      · cases h
      · rename_i k hkind
        obtain rfl := Except.ok.inj h
        have hcomma : ',' ∉ name := fun hm => hcomma (List.mem_append_left _ hm)
        refine ⟨⟨fun he => hname ?_, by simpa using hequals, by simpa using hcomma⟩, ?_⟩
        · simpa using String.toList_eq_nil_iff.2 he
        · simp [toPiece, FieldKind.name_of_ofName? hkind]

theorem mapM_ofPiece_toPiece {fields : List Field} (h : ∀ field ∈ fields, field.Writable)
    (argument : String) : (fields.map toPiece).mapM (ofPiece argument) = .ok fields := by
  induction fields with
  | nil => rfl
  | cons field rest ih =>
    rw [List.map_cons, List.mapM_cons, ofPiece_toPiece (h field List.mem_cons_self),
      ih fun f hf => h f (List.mem_cons_of_mem _ hf)]
    rfl

theorem toPiece_of_mapM_ofPiece {argument : String} {ps : List (List Char)} {fields : List Field}
    (hcomma : ∀ p ∈ ps, ',' ∉ p) (h : ps.mapM (ofPiece argument) = .ok fields) :
    (∀ field ∈ fields, field.Writable) ∧ fields.map toPiece = ps := by
  induction ps generalizing fields with
  | nil =>
    obtain rfl := Except.ok.inj h
    exact ⟨by simp, rfl⟩
  | cons piece rest ih =>
    rw [List.mapM_cons] at h
    obtain ⟨field, hfield, h⟩ := Except.exists_of_bind_eq_ok h
    obtain ⟨others, hothers, h⟩ := Except.exists_of_bind_eq_ok h
    obtain rfl := Except.ok.inj h
    obtain ⟨hw, rfl⟩ := toPiece_of_ofPiece (hcomma piece List.mem_cons_self) hfield
    obtain ⟨hws, rfl⟩ := ih (fun p hp => hcomma p (List.mem_cons_of_mem _ hp)) hothers
    exact ⟨List.forall_mem_cons.2 ⟨hw, hws⟩, rfl⟩

end Field

namespace RecordType

/-- What an argument can say: a document type whose name stops at the first colon, and fields
whose names stop at the first equals sign and do not run over a comma. -/
structure Writable (t : RecordType) : Prop where
  document : t.scope = .document
  named : t.name ≠ ""
  noColon : ':' ∉ t.name.toList
  fields : ∀ field ∈ t.fields, field.Writable

theorem toArgument_of_ne_nil {t : RecordType} (h : t.fields ≠ []) :
    t.toArgument =
      String.ofList (t.name.toList ++ ':' :: join ',' (t.fields.map Field.toPiece)) := by
  unfold toArgument
  split
  · rename_i he
    exact absurd he h
  · rfl

theorem ofArgument_toArgument {t : RecordType} (h : t.Writable) :
    ofArgument t.toArgument = .ok t := by
  obtain ⟨name, scope, fields⟩ := t
  obtain rfl : scope = .document := h.document
  have hname : name.toList ≠ [] := fun hn => h.named (String.toList_eq_nil_iff.1 hn)
  cases fields with
  | nil =>
    rw [toArgument, ofArgument, splitFirst?_eq_none_iff.2 h.noColon]
    simp [hname, document]
  | cons field rest =>
    have hcomma : ∀ p ∈ (field :: rest).map Field.toPiece, ',' ∉ p := by
      intro p hp
      obtain ⟨f, hf, rfl⟩ := List.mem_map.1 hp
      exact (h.fields f hf).comma_notMem
    have hne : (field :: rest).map Field.toPiece ≠ [] := List.cons_ne_nil _ _
    rw [toArgument_of_ne_nil (List.cons_ne_nil field rest), ofArgument, String.toList_ofList,
      splitFirst?_append _ h.noColon]
    simp only [hname, if_false, pieces_join hne hcomma, Field.mapM_ofPiece_toPiece h.fields]
    simp [document]
    rfl

theorem toArgument_of_ofArgument {argument : String} {t : RecordType}
    (h : ofArgument argument = .ok t) : t.Writable ∧ t.toArgument = argument := by
  unfold ofArgument at h
  cases hsplit : splitFirst? ':' argument.toList with
  | none =>
    simp only [hsplit] at h
    split at h
    · cases h
    · rename_i hname
      obtain rfl := Except.ok.inj h
      have hne : argument ≠ "" := fun he => hname (String.toList_eq_nil_iff.2 he)
      refine ⟨⟨rfl, by simpa [document] using hne, ?_, fun field hf => nomatch hf⟩, ?_⟩
      · simpa [document] using splitFirst?_eq_none_iff.1 hsplit
      · simp [toArgument, document]
  | some parts =>
    obtain ⟨name, text⟩ := parts
    obtain ⟨hargument, hcolon⟩ := splitFirst?_eq_some_iff.1 hsplit
    simp only [hsplit] at h
    split at h
    · cases h
    · rename_i hname
      obtain ⟨fields, hfields, h⟩ := Except.exists_of_bind_eq_ok h
      obtain rfl := Except.ok.inj h
      obtain ⟨hw, hpieces⟩ :=
        Field.toPiece_of_mapM_ofPiece (fun p hp => notMem_of_mem_pieces hp) hfields
      have hne : fields ≠ [] := by
        rintro rfl
        exact pieces_ne_nil text hpieces.symm
      refine ⟨⟨rfl, fun he => hname ?_, by simpa [document] using hcolon, hw⟩, ?_⟩
      · simpa [document] using String.toList_eq_nil_iff.2 he
      · rw [toArgument_of_ne_nil hne, hpieces, join_pieces]
        simp [document, ← hargument]

theorem ofArgument_eq_ok_iff {argument : String} {t : RecordType} :
    ofArgument argument = .ok t ↔ t.Writable ∧ t.toArgument = argument :=
  ⟨toArgument_of_ofArgument, fun ⟨hw, ha⟩ => ha ▸ ofArgument_toArgument hw⟩

/-- Reading is a one-to-one correspondence of the texts that are read and the types that can be
written, writing is its inverse on both sides, and every other text is refused. -/
theorem ofArgument_bijective :
    Set.BijOn ofArgument {argument | ∃ t, ofArgument argument = .ok t}
        (Set.image Except.ok {t | t.Writable}) ∧
      (∀ t : RecordType, t.Writable → ofArgument t.toArgument = .ok t) ∧
      (∀ argument t, ofArgument argument = .ok t → toArgument t = argument) ∧
      ∀ argument, (∀ t : RecordType, t.Writable → t.toArgument ≠ argument) →
        ∃ e, ofArgument argument = .error e := by
  refine ⟨⟨?_, ?_, ?_⟩, fun t => ofArgument_toArgument,
    fun argument t h => (toArgument_of_ofArgument h).2, fun argument h => ?_⟩
  · rintro argument ⟨t, ht⟩
    exact ⟨t, (toArgument_of_ofArgument ht).1, ht.symm⟩
  · rintro argument ⟨t, ht⟩ argument' - he
    exact (toArgument_of_ofArgument ht).2.symm.trans (toArgument_of_ofArgument (he ▸ ht)).2
  · rintro _ ⟨t, ht, rfl⟩
    exact ⟨t.toArgument, ⟨t, ofArgument_toArgument ht⟩, ofArgument_toArgument ht⟩
  · cases hr : ofArgument argument with
    | error e => exact ⟨e, rfl⟩
    | ok t => exact absurd (toArgument_of_ofArgument hr).2 (h t (toArgument_of_ofArgument hr).1)

/-- A field may be given twice and have a colon in its name. -/
theorem ofArgument_bijective_repeated :
    let shape : RecordType :=
      ⟨"shape", .document, [⟨"x", .number⟩, ⟨"a:b", .any⟩, ⟨"x", .string⟩]⟩
    shape.toArgument = "shape:x=number,a:b=any,x=string" ∧
      ofArgument shape.toArgument = .ok shape := by
  intro shape
  have hfields : ∀ field ∈ shape.fields, field.Writable := by
    simp only [shape, List.forall_mem_cons]
    refine ⟨⟨by decide, by decide, by decide⟩, ⟨by decide, by decide, by decide⟩,
      ⟨by decide, by decide, by decide⟩, by simp⟩
  exact ⟨by decide, ofArgument_bijective.2.1 shape ⟨rfl, by decide, by decide, hfields⟩⟩

end RecordType

end RoomSync
