import RoomSync.CommandLine
import RoomSync.Proofs.CommandLine.TypeArgument
import RoomSync.Proofs.Room.Sheltered

namespace RoomSync

open Table

theorem RecordType.scope_of_ofArgument {argument : String} {t : RecordType}
    (h : ofArgument argument = .ok t) : t.scope = .document :=
  (ofArgument_eq_ok_iff.1 h).1.document

namespace Settings

structure Kept (P : Settings → Prop) : Prop where
  assign : ∀ {s s' : Settings} {flag value}, s.assign flag value = .ok s' → P s → P s'
  verbose : ∀ {s : Settings}, P s → P { s with verbose := true }

namespace Kept

variable {P : Settings → Prop} (h : Kept P) {s s' : Settings}
include h

theorem take {flag : Flag} {value : String} (he : s.take flag value = .ok s') (hs : P s) :
    P s' := by
  rw [Settings.take] at he
  split at he
  · cases he
  · split at he
    · rename_i ha
      obtain rfl := Except.ok.inj he
      exact h.assign ha hs
    · cases he

theorem raise {flag : Flag} (he : s.raise flag = .ok s') (hs : P s) : P s' := by
  unfold Settings.raise at he
  split at he
  · cases he
  · cases he
  · split at he
    · cases he
    · obtain rfl := Except.ok.inj he
      exact h.verbose hs

theorem resolve {pending : Option OpenFlag} (he : s.resolve pending = .ok s') (hs : P s) :
    P s' := by
  unfold Settings.resolve at he
  split at he
  · exact Except.ok.inj he ▸ hs
  · cases he
  · exact h.take he hs

theorem readFrom {pending : Option OpenFlag} {arguments : List String}
    (he : CommandLine.readFrom s pending arguments = .ok s') (hs : P s) : P s' := by
  induction arguments generalizing s pending with
  | nil => exact h.resolve he hs
  | cons argument rest ih =>
    unfold CommandLine.readFrom at he
    split at he
    · split at he
      · exact h.resolve he hs
      · cases he
    · split at he
      · cases he
      · split at he
        · obtain ⟨s₁, h₁, he⟩ := Except.exists_of_bind_eq_ok he
          obtain ⟨s₂, h₂, he⟩ := Except.exists_of_bind_eq_ok he
          exact ih he (h.take h₂ (h.resolve h₁ hs))
        · cases he
      · obtain ⟨s₁, h₁, he⟩ := Except.exists_of_bind_eq_ok he
        split at he
        · exact ih he (h.resolve h₁ hs)
        · obtain ⟨s₂, h₂, he⟩ := Except.exists_of_bind_eq_ok he
          exact ih he (h.raise h₂ (h.resolve h₁ hs))
    · split at he
      · cases he
      · obtain ⟨s₁, h₁, he⟩ := Except.exists_of_bind_eq_ok he
        obtain ⟨s₂, h₂, he⟩ := Except.exists_of_bind_eq_ok he
        exact ih he (h.raise h₂ (h.resolve h₁ hs))
    · split at he
      · exact ih he hs
      · cases he

end Kept

theorem kept_document : Kept fun s => ∀ t ∈ s.recordTypes, t.scope = .document where
  verbose hs := hs
  assign {s s' flag value} he hs := by
    cases flag with
    | bind =>
      obtain rfl := Except.ok.inj he
      exact hs
    | schemaVersion | minSchemaVersion | maxSessions | tickMs =>
      unfold Settings.assign at he
      dsimp only at he
      split at he
      · obtain rfl := Except.ok.inj he
        exact hs
      · cases he
    | recordType =>
      unfold Settings.assign at he
      dsimp only at he
      split at he
      · rename_i t ht
        obtain rfl := Except.ok.inj he
        intro t' ht'
        obtain ht' | ht' := List.mem_append.1 ht'
        · exact hs t' ht'
        · exact List.mem_singleton.1 ht' ▸ RecordType.scope_of_ofArgument ht
      · cases he
    | verbose | help | version =>
      obtain rfl := Except.ok.inj he
      exact hs

end Settings

namespace Schema

theorem get?_foldl_withType (types : List RecordType) (s : Schema) (name : String) :
    (∃ t ∈ types, t.name = name ∧ (types.foldl withType s).types.get? name = some t) ∨
      (∀ t ∈ types, t.name ≠ name) ∧
        (types.foldl withType s).types.get? name = s.types.get? name := by
  induction types generalizing s with
  | nil => exact .inr ⟨nofun, rfl⟩
  | cons first rest ih =>
    obtain ⟨t, ht, hname, hget⟩ | ⟨hnone, hget⟩ := ih (s.withType first)
    · exact .inl ⟨t, List.mem_cons_of_mem _ ht, hname, hget⟩
    · rw [List.foldl_cons, hget]
      have hfirst : (s.withType first).types.get? name =
          if name = first.name then some first else s.types.get? name := get?_insert ..
      by_cases hname : name = first.name
      · exact .inl ⟨first, List.mem_cons_self, hname.symm, hfirst.trans (if_pos hname)⟩
      · refine .inr ⟨List.forall_mem_cons.2 ⟨Ne.symm hname, hnone⟩, ?_⟩
        exact hfirst.trans (if_neg hname)

theorem versions_foldl_withType (types : List RecordType) (s : Schema) :
    (types.foldl withType s).version = s.version ∧
      (types.foldl withType s).minVersion = s.minVersion := by
  induction types generalizing s with
  | nil => exact ⟨rfl, rfl⟩
  | cons first rest ih => exact ih (s.withType first)

end Schema

namespace Settings

variable {s : Settings}

theorem schema_keepsPresence_iff (hs : ∀ t ∈ s.recordTypes, t.scope = .document) :
    s.schema.KeepsPresence ↔ ∀ t ∈ s.recordTypes, t.name ≠ presenceType := by
  let base : Schema := { Schema.base s.version with
    minVersion := s.minSchemaVersion.getD s.version }
  obtain ⟨t, ht, hname, hget⟩ | ⟨hnone, hget⟩ :=
    Schema.get?_foldl_withType s.recordTypes base presenceType
  · refine iff_of_false (fun ⟨t', ht', hscope⟩ => ?_) fun h => h t ht hname
    obtain rfl := Option.some.inj (hget.symm.trans ht')
    cases (hs t ht).symm.trans hscope
  · exact iff_of_true ⟨.presence, hget, rfl⟩ hnone

theorem closed_iff (environmentBind : Option String) :
    (s.serverConfig environmentBind).room.Closed ↔
      s.maxSessions = some 0 ∨ s.version < s.minSchemaVersion.getD s.version := by
  obtain ⟨hversion, hmin⟩ := Schema.versions_foldl_withType s.recordTypes
    { Schema.base s.version with minVersion := s.minSchemaVersion.getD s.version }
  have hmax : s.maxSessions.getD 100 = 0 ↔ s.maxSessions = some 0 := by
    cases s.maxSessions <;> simp
  refine or_congr hmax ?_
  change s.schema.version < s.schema.minVersion ↔ _
  rw [schema, hversion, hmin]
  rfl

end Settings

namespace CommandLine

/-- Whoever starts a server by a command line gets rooms in which no document is taken for presence,
unless a record type is named like the presence type and there is anybody to write such records. -/
theorem rooms_sheltered_iff {arguments : List String} {settings : Settings}
    (h : read arguments = .ok settings) (environmentBind : Option String) :
    (settings.serverConfig environmentBind).room.Shelters ↔
      (∀ t ∈ settings.recordTypes, t.name ≠ presenceType) ∨ settings.maxSessions = some 0 ∨
        settings.version < settings.minSchemaVersion.getD settings.version := by
  have hdocuments := Settings.kept_document.readFrom h nofun
  rw [Config.shelters_iff, Settings.closed_iff]
  exact or_congr (Settings.schema_keepsPresence_iff hdocuments) Iff.rfl

theorem rooms_sheltered_notes :
    let settings : Settings :=
      { recordTypes := [⟨"note", .document, [⟨"title", .string⟩]⟩], maxSessions := some 2 }
    read ["--record-type", "note:title=string", "--max-sessions=2"] = .ok settings ∧
      (settings.serverConfig none).room.Shelters := by
  intro settings
  have hread : read ["--record-type", "note:title=string", "--max-sessions=2"] = .ok settings := by
    decide +kernel
  exact ⟨hread, (rooms_sheltered_iff hread none).2 (.inl (by decide))⟩

/-- A record type with the name of the presence type is accepted on the command line. A document of
it is stored and is in the snapshot; a replica does not list it and loses it by catching up. -/
theorem presence_type_taken_over :
    let settings : Settings := { recordTypes := [.document presenceType] }
    let config := (settings.serverConfig none).room
    let start : LiveRoom Unit := ⟨.new config, ()⟩
    let calls : List LiveRoom.Call := [⟨0, .openSocket "a" 0 .null⟩,
      ⟨0, .connect "a" ⟨"a", "presence:a", ⟨1, ["presence"]⟩, none⟩⟩,
      ⟨0, .push "a" ⟨"a", 1, [⟨"p1", .upsert presenceType (.object [])⟩], none⟩⟩]
    let room := (start.run calls).room
    let record : Record := ⟨"p1", presenceType, .object [], 1⟩
    let replica : Replica := ⟨1, room.moment.view "presence:b"⟩
    read ["--record-type", "presence"] = .ok settings ∧ room.store.get? "p1" = some record ∧
      room.snapshot.records = [record] ∧ replica.get? "p1" = some record ∧
      replica.documents = [] ∧
      (replica.catchUp ⟨1, 1, Table.empty⟩).toOption = some ⟨1, Table.empty⟩ ∧
        ¬config.Shelters := by
  intro settings config start calls room record replica
  have hstored : room.store.get? "p1" = some record := by decide +kernel
  refine ⟨by decide +kernel, hstored, by decide +kernel, by decide +kernel, by decide +kernel,
    by decide +kernel, fun h => ?_⟩
  have hsheltered : room.Sheltered := (h .new () calls).1
  exact hsheltered.stored "p1" record hstored (Eq.refl presenceType)

end CommandLine

end RoomSync
