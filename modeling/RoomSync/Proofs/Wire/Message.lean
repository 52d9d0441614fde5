import RoomSync.Proofs.Content.Reading
import RoomSync.Proofs.Wire.Codec
import RoomSync.Wire.Message

namespace RoomSync

open Wire (TextFits)

structure Record.Fits (r : Record) : Prop where
  id : TextFits r.id
  typeName : TextFits r.typeName
  stamp : r.stamp < 2 ^ 64

def Edit.Fits : Edit → Prop
  | .upsert typeName _ => TextFits typeName
  | .delete => True

def Edit.values : Edit → List Content
  | .upsert _ content => [content]
  | .delete => []

structure Mutation.Fits (m : Mutation) : Prop where
  recordId : TextFits m.recordId
  edit : m.edit.Fits

structure SchemaSummary.Fits (s : SchemaSummary) : Prop where
  version : s.version < 2 ^ 32
  count : s.recordTypes.length < 2 ^ 64
  recordTypes : ∀ name ∈ s.recordTypes, TextFits name

structure ConnectRequest.Fits (r : ConnectRequest) : Prop where
  sessionKey : TextFits r.sessionKey
  presenceId : TextFits r.presenceId
  schema : r.schema.Fits
  lastKnownClock : ∀ clock, r.lastKnownClock = some clock → clock < 2 ^ 64

structure Push.Fits (p : Push) : Prop where
  sessionKey : TextFits p.sessionKey
  pushId : p.pushId < 2 ^ 64
  count : p.mutations.length < 2 ^ 64
  mutations : ∀ m ∈ p.mutations, m.Fits

def Push.values (p : Push) : List Content :=
  p.mutations.flatMap (fun m => m.edit.values) ++ p.presence.toList

def ClientMessage.Fits : ClientMessage → Prop
  | .connect request => request.Fits
  | .push p => p.Fits
  | .ping => True

def ClientMessage.values : ClientMessage → List Content
  | .push p => p.values
  | .connect _ | .ping => []

def Refusal.Fits : Refusal → Prop
  | .unknownType name | .wrongScope name | .missingField name | .wrongFieldKind name _
  | .reservedId name => TextFits name
  | .notAnObject | .emptyId => True

structure Rejection.Fits (r : Rejection) : Prop where
  recordId : TextFits r.recordId
  reason : r.reason.Fits
  current : ∀ record, r.current = some record → record.Fits

def Rejection.values (r : Rejection) : List Content := r.current.toList.map Record.content

structure PushResult.Fits (r : PushResult) : Prop where
  pushId : r.pushId < 2 ^ 64
  clock : r.clock < 2 ^ 64
  count : r.rejected.length < 2 ^ 64
  rejected : ∀ rejection ∈ r.rejected, rejection.Fits

def Change.Fits : Change → Prop
  | .put record => record.Fits
  | .remove => True

def Change.values : Change → List Content
  | .put record => [record.content]
  | .remove => []

structure Patch.Fits (p : Patch) : Prop where
  fromClock : p.fromClock < 2 ^ 64
  toClock : p.toClock < 2 ^ 64
  count : p.changes.entries.length < 2 ^ 64
  changes : ∀ e ∈ p.changes.entries, TextFits e.1 ∧ e.2.Fits

def Patch.values (p : Patch) : List Content := p.changes.entries.flatMap fun e => e.2.values

def DataMessage.Fits : DataMessage → Prop
  | .patch p => p.Fits
  | .pushResult r => r.Fits

def DataMessage.values : DataMessage → List Content
  | .patch p => p.values
  | .pushResult r => r.rejected.flatMap Rejection.values

def Hydration.Fits : Hydration → Prop
  | .full records => records.length < 2 ^ 64 ∧ ∀ r ∈ records, r.Fits
  | .incremental patch => patch.Fits

def Hydration.values : Hydration → List Content
  | .full records => records.map Record.content
  | .incremental patch => patch.values

structure Accepted.Fits (a : Accepted) : Prop where
  clock : a.clock < 2 ^ 64
  schemaVersion : a.schemaVersion < 2 ^ 32
  hydration : a.hydration.Fits

def ServerMessage.Fits : ServerMessage → Prop
  | .connected accepted => accepted.Fits
  | .data batch => batch.length < 2 ^ 64 ∧ ∀ message ∈ batch, message.Fits
  | .error message => TextFits message
  | .rejectConnect _ | .pong => True

def ServerMessage.values : ServerMessage → List Content
  | .connected accepted => accepted.hydration.values
  | .data batch => batch.flatMap DataMessage.values
  | .rejectConnect _ | .pong | .error _ => []

/-- The text of a content fits its field, and the text of each floating-point number inside is read
as an equal number. -/
structure Content.Printable (c : Content) : Prop where
  text : TextFits c.print
  floats : ∀ x ∈ c.floats, ReadsBack x

instance (c : Content) : Decidable c.Printable :=
  decidable_of_iff (TextFits c.print ∧ ∀ x ∈ c.floats, Content.ReadsBack x)
    ⟨fun h => ⟨h.1, h.2⟩, fun h => ⟨h.text, h.floats⟩⟩

structure Content.Portable (c : Content) : Prop where
  shallow : c.Shallow maxDepth
  printable : c.Printable

instance (c : Content) : Decidable c.Portable :=
  decidable_of_iff (c.Shallow Content.maxDepth ∧ c.Printable)
    ⟨fun h => ⟨h.1, h.2⟩, fun h => ⟨h.shallow, h.printable⟩⟩

namespace Wire

variable {α β : Type}

/-- A writer and a reader go together: what fits is read back if its contents are, and what is read
fits. -/
structure Faithful (write : α → Bytes) (read : Reader α) (fits : α → Prop)
    (values : α → List Content) : Prop where
  reads : ∀ a, fits a → (∀ c ∈ values a, c.Portable) → Reads read (write a) a
  yields : Yields read fun a => fits a ∧ ∀ c ∈ values a, c.Shallow Content.maxDepth

theorem faithful_content :
    Faithful writeContent readContent (fun _ => True) (fun c => [c]) := by
  refine ⟨fun c _ h => ?_, ?_⟩
  · have hc := List.forall_mem_singleton.1 h
    have hlegible : ∀ v ∈ c.parts, v.Legible := fun v hv =>
      ⟨hc.shallow.sound v hv, fun x hx => hc.printable.floats x (Content.mem_floats.2 (hx ▸ hv))⟩
    have hread : Reads readContent (writeText c.print ++ []) c := by
      refine .bind (reads_text hc.printable.text) ?_
      rw [Content.read?_print hlegible hc.shallow.depth]
      exact .pure c
    rwa [List.append_nil] at hread
  · refine .bind yields_text fun s _ => ?_
    split
    · rename_i c hc
      exact .pure ⟨trivial, List.forall_mem_singleton.2 (Content.shallow_read? hc)⟩
    · exact .failure

section
variable {write : α → Bytes} {read : Reader α} {fits : α → Prop} {values : α → List Content}
  (h : Faithful write read fits values)
include h

theorem Faithful.option : Faithful (writeOption write) (readOption read)
    (fun o => ∀ a, o = some a → fits a) (fun o => o.toList.flatMap values) := by
  refine ⟨fun o hfits hvalues => ?_, ?_⟩
  · refine reads_option fun a ha => h.reads a (hfits a ha) fun c hc => hvalues c ?_
    subst ha
    simpa using hc
  · intro bytes o rest hread
    have ho := yields_option h.yields bytes o rest hread
    refine ⟨fun a ha => (ho a ha).1, fun c hc => ?_⟩
    obtain ⟨a, ha, hc⟩ := List.mem_flatMap.1 hc
    exact (ho a (Option.mem_toList.1 ha)).2 c hc

theorem Faithful.list : Faithful (writeList write) (readList read)
    (fun l => l.length < 2 ^ 64 ∧ ∀ a ∈ l, fits a) (fun l => l.flatMap values) := by
  refine ⟨fun l hfits hvalues => ?_, ?_⟩
  · exact reads_list hfits.1 fun a ha =>
      h.reads a (hfits.2 a ha) fun c hc => hvalues c (List.mem_flatMap_of_mem ha hc)
  · intro bytes l rest hread
    obtain ⟨hlength, hall⟩ := yields_list h.yields bytes l rest hread
    refine ⟨⟨hlength, fun a ha => (hall a ha).1⟩, fun c hc => ?_⟩
    obtain ⟨a, ha, hc⟩ := List.mem_flatMap.1 hc
    exact (hall a ha).2 c hc

theorem Faithful.table : Faithful (writeTable write) (readTable read)
    (fun t => t.entries.length < 2 ^ 64 ∧ ∀ e ∈ t.entries, TextFits e.1 ∧ fits e.2)
    (fun t => t.entries.flatMap fun e => values e.2) := by
  refine ⟨fun t hfits hvalues => ?_, ?_⟩
  · exact reads_table hfits.1 fun e he => ⟨(hfits.2 e he).1,
      h.reads e.2 (hfits.2 e he).2 fun c hc => hvalues c (List.mem_flatMap_of_mem he hc)⟩
  · intro bytes t rest hread
    obtain ⟨hlength, hall⟩ := yields_table h.yields bytes t rest hread
    refine ⟨⟨hlength, fun e he => ⟨(hall e he).1, (hall e he).2.1⟩⟩, fun c hc => ?_⟩
    obtain ⟨e, he, hc⟩ := List.mem_flatMap.1 hc
    exact (hall e he).2.2 c hc

end

theorem faithful_record :
    Faithful writeRecord readRecord Record.Fits (fun r => [r.content]) := by
  refine ⟨fun r h hc => ?_, ?_⟩
  · have hread : Reads readRecord (writeText r.id ++ (writeText r.typeName ++
        (writeContent r.content ++ (writeNat r.stamp ++ [])))) r :=
      .bind (reads_text h.id) (.bind (reads_text h.typeName)
        (.bind (faithful_content.reads r.content trivial hc) (.bind (reads64 h.stamp) (.pure _))))
    exact hread.of_eq (by simp [writeRecord])
  · exact .bind yields_text fun id hid => .bind yields_text fun typeName htype =>
      .bind faithful_content.yields fun content hcontent => .bind yields64 fun stamp hstamp =>
        .pure ⟨⟨hid, htype, hstamp⟩, hcontent.2⟩

theorem forall_mem_contents {records : List Record} {P : Content → Prop} :
    (∀ c ∈ records.flatMap fun r => [r.content], P c) ↔ ∀ c ∈ records.map Record.content, P c := by
  rw [List.map_eq_flatMap]

theorem faithful_edit : Faithful writeEdit readEdit Edit.Fits Edit.values := by
  refine ⟨fun e h hc => ?_, ?_⟩
  · cases e with
    | upsert typeName content =>
      have hread : Reads readEdit (writeNat 0 ++ (writeText typeName ++
          (writeContent content ++ []))) (.upsert typeName content) :=
        .bind (reads32 (by decide)) (.bind (reads_text h)
          (.bind (faithful_content.reads content trivial hc) (.pure _)))
      exact hread.of_eq (by simp [writeEdit])
    | delete => exact fun rest => rfl
  · refine .bind yields32 fun tag _ => ?_
    split
    · exact .bind yields_text fun typeName htype =>
        .bind faithful_content.yields fun content hcontent => .pure ⟨htype, hcontent.2⟩
    · exact .pure ⟨trivial, List.forall_mem_nil _⟩
    · exact .failure

theorem faithful_mutation :
    Faithful writeMutation readMutation Mutation.Fits (fun m => m.edit.values) := by
  refine ⟨fun m h hc => ?_, ?_⟩
  · have hread : Reads readMutation (writeText m.recordId ++ (writeEdit m.edit ++ [])) m :=
      .bind (reads_text h.recordId) (.bind (faithful_edit.reads m.edit h.edit hc) (.pure _))
    exact hread.of_eq (by simp [writeMutation])
  · exact .bind yields_text fun recordId hid => .bind faithful_edit.yields fun edit hedit =>
      .pure ⟨⟨hid, hedit.1⟩, hedit.2⟩

theorem reads_summary {s : SchemaSummary} (h : s.Fits) : Reads readSummary (writeSummary s) s := by
  have hnames := reads_list h.count fun name hname => reads_text (h.recordTypes name hname)
  have hread : Reads readSummary (writeNat s.version ++
      (writeList writeText s.recordTypes ++ [])) s :=
    .bind (reads32 h.version) (.bind hnames (.pure _))
  exact hread.of_eq (by simp [writeSummary])

theorem yields_summary : Yields readSummary SchemaSummary.Fits :=
  .bind yields32 fun _ hversion => .bind (yields_list yields_text) fun _ hnames =>
    .pure ⟨hversion, hnames.1, hnames.2⟩

theorem reads_connectRequest {r : ConnectRequest} (h : r.Fits) :
    Reads readConnectRequest (writeConnectRequest r) r := by
  have hclock := reads_option fun clock hclock => reads64 (h.lastKnownClock clock hclock)
  have hread : Reads readConnectRequest (writeText r.sessionKey ++ (writeText r.presenceId ++
      (writeSummary r.schema ++ (writeOption writeNat r.lastKnownClock ++ [])))) r :=
    .bind (reads_text h.sessionKey) (.bind (reads_text h.presenceId)
      (.bind (reads_summary h.schema) (.bind hclock (.pure _))))
  exact hread.of_eq (by simp [writeConnectRequest])

theorem yields_connectRequest : Yields readConnectRequest ConnectRequest.Fits :=
  .bind yields_text fun _ hkey => .bind yields_text fun _ hid => .bind yields_summary fun _ hschema =>
    .bind (yields_option yields64) fun _ hclock => .pure ⟨hkey, hid, hschema, hclock⟩

theorem faithful_push : Faithful writePush readPush Push.Fits Push.values := by
  refine ⟨fun p h hc => ?_, ?_⟩
  · obtain ⟨hrecords, hpresence⟩ := List.forall_mem_append.1 hc
    have hmutations := faithful_mutation.list.reads p.mutations ⟨h.count, h.mutations⟩ hrecords
    have hoption := faithful_content.option.reads p.presence (fun _ _ => trivial)
      (by simpa using hpresence)
    have hread : Reads readPush (writeText p.sessionKey ++ (writeNat p.pushId ++
        (writeList writeMutation p.mutations ++ (writeOption writeContent p.presence ++ [])))) p :=
      .bind (reads_text h.sessionKey) (.bind (reads64 h.pushId)
        (.bind hmutations (.bind hoption (.pure _))))
    exact hread.of_eq (by simp [writePush])
  · refine .bind yields_text fun key hkey => .bind yields64 fun pushId hid =>
      .bind faithful_mutation.list.yields fun mutations hmutations =>
        .bind faithful_content.option.yields fun presence hpresence =>
          .pure ⟨⟨hkey, hid, hmutations.1.1, hmutations.1.2⟩, ?_⟩
    exact List.forall_mem_append.2 ⟨hmutations.2, by simpa using hpresence.2⟩

theorem faithful_clientMessage :
    Faithful writeClientMessage readClientMessage ClientMessage.Fits ClientMessage.values := by
  refine ⟨fun m h hc => ?_, ?_⟩
  · cases m with
    | connect request =>
      exact .bind (reads32 (by decide)) ((reads_connectRequest h).map ClientMessage.connect)
    | push push =>
      exact .bind (reads32 (by decide)) ((faithful_push.reads push h hc).map ClientMessage.push)
    | ping => exact fun rest => rfl
  · refine .bind yields32 fun tag _ => ?_
    split
    · exact .map fun bytes request rest hread =>
        ⟨yields_connectRequest bytes request rest hread, List.forall_mem_nil _⟩
    · exact .map faithful_push.yields
    · exact .pure ⟨trivial, List.forall_mem_nil _⟩
    · exact .failure

theorem reads_fieldKind (kind : FieldKind) : Reads readFieldKind (writeFieldKind kind) kind := by
  intro rest
  cases kind <;> rfl

theorem reads_refusal {r : Refusal} (h : r.Fits) : Reads readRefusal (writeRefusal r) r := by
  cases r with
  | unknownType name => exact .bind (reads32 (by decide)) ((reads_text h).map Refusal.unknownType)
  | wrongScope name => exact .bind (reads32 (by decide)) ((reads_text h).map Refusal.wrongScope)
  | notAnObject => exact fun rest => rfl
  | missingField field =>
    exact .bind (reads32 (by decide)) ((reads_text h).map Refusal.missingField)
  | wrongFieldKind field expected =>
    have hread : Reads readRefusal (writeNat 4 ++ (writeText field ++
        (writeFieldKind expected ++ []))) (.wrongFieldKind field expected) :=
      .bind (reads32 (by decide)) (.bind (reads_text h)
        (.bind (reads_fieldKind expected) (.pure _)))
    exact hread.of_eq (by simp [writeRefusal])
  | emptyId => exact fun rest => rfl
  | reservedId id => exact .bind (reads32 (by decide)) ((reads_text h).map Refusal.reservedId)

theorem yields_refusal : Yields readRefusal Refusal.Fits := by
  refine .bind yields32 fun tag _ => ?_
  split
  · exact .map yields_text
  · exact .map yields_text
  · exact .pure trivial
  · exact .map yields_text
  · exact .bind yields_text fun field hfield => .bind (.any readFieldKind) fun kind _ =>
      .pure hfield
  · exact .pure trivial
  · exact .map yields_text
  · exact .failure

theorem faithful_rejection :
    Faithful writeRejection readRejection Rejection.Fits Rejection.values := by
  refine ⟨fun r h hc => ?_, ?_⟩
  · have hcurrent := faithful_record.option.reads r.current h.current (forall_mem_contents.2 hc)
    have hread : Reads readRejection (writeText r.recordId ++ (writeRefusal r.reason ++
        (writeOption writeRecord r.current ++ []))) r :=
      .bind (reads_text h.recordId) (.bind (reads_refusal h.reason)
        (.bind hcurrent (.pure _)))
    exact hread.of_eq (by simp [writeRejection])
  · exact .bind yields_text fun recordId hid => .bind yields_refusal
      fun reason hreason => .bind faithful_record.option.yields fun current hcurrent =>
        .pure ⟨⟨hid, hreason, hcurrent.1⟩, forall_mem_contents.1 hcurrent.2⟩

theorem faithful_pushResult : Faithful writePushResult readPushResult PushResult.Fits
    (fun r => r.rejected.flatMap Rejection.values) := by
  refine ⟨fun r h hc => ?_, ?_⟩
  · have hrejected := faithful_rejection.list.reads r.rejected ⟨h.count, h.rejected⟩ hc
    have hread : Reads readPushResult (writeNat r.pushId ++ (writeNat r.clock ++
        (writeList writeRejection r.rejected ++ []))) r :=
      .bind (reads64 h.pushId) (.bind (reads64 h.clock) (.bind hrejected (.pure _)))
    exact hread.of_eq (by simp [writePushResult])
  · exact .bind yields64 fun pushId hid => .bind yields64 fun clock hclock =>
      .bind faithful_rejection.list.yields fun rejected hrejected =>
        .pure ⟨⟨hid, hclock, hrejected.1.1, hrejected.1.2⟩, hrejected.2⟩

theorem faithful_change : Faithful writeChange readChange Change.Fits Change.values := by
  refine ⟨fun change h hc => ?_, ?_⟩
  · cases change with
    | put record =>
      exact .bind (reads32 (by decide)) ((faithful_record.reads record h hc).map Change.put)
    | remove => exact fun rest => rfl
  · refine .bind yields32 fun tag _ => ?_
    split
    · exact .map faithful_record.yields
    · exact .pure ⟨trivial, List.forall_mem_nil _⟩
    · exact .failure

theorem faithful_patch : Faithful writePatch readPatch Patch.Fits Patch.values := by
  refine ⟨fun p h hc => ?_, ?_⟩
  · have hchanges := faithful_change.table.reads p.changes ⟨h.count, h.changes⟩ hc
    have hread : Reads readPatch (writeNat p.fromClock ++ (writeNat p.toClock ++
        (writeTable writeChange p.changes ++ []))) p :=
      .bind (reads64 h.fromClock) (.bind (reads64 h.toClock) (.bind hchanges (.pure _)))
    exact hread.of_eq (by simp [writePatch])
  · exact .bind yields64 fun fromClock hfrom => .bind yields64 fun toClock hto =>
      .bind faithful_change.table.yields fun changes hchanges =>
        .pure ⟨⟨hfrom, hto, hchanges.1.1, hchanges.1.2⟩, hchanges.2⟩

theorem faithful_dataMessage :
    Faithful writeDataMessage readDataMessage DataMessage.Fits DataMessage.values := by
  refine ⟨fun m h hc => ?_, ?_⟩
  · cases m with
    | patch patch =>
      exact .bind (reads32 (by decide)) ((faithful_patch.reads patch h hc).map DataMessage.patch)
    | pushResult result =>
      exact .bind (reads32 (by decide))
        ((faithful_pushResult.reads result h hc).map DataMessage.pushResult)
  · refine .bind yields32 fun tag _ => ?_
    split
    · exact .map faithful_patch.yields
    · exact .map faithful_pushResult.yields
    · exact .failure

theorem faithful_hydration :
    Faithful writeHydration readHydration Hydration.Fits Hydration.values := by
  refine ⟨fun hydration h hc => ?_, ?_⟩
  · cases hydration with
    | full records =>
      have hrecords := faithful_record.list.reads records h (forall_mem_contents.2 hc)
      exact .bind (reads32 (by decide)) (hrecords.map Hydration.full)
    | incremental patch =>
      exact .bind (reads32 (by decide))
        ((faithful_patch.reads patch h hc).map Hydration.incremental)
  · refine .bind yields32 fun tag _ => ?_
    split
    · refine .map fun bytes records rest hread => ?_
      obtain ⟨hfits, hvalues⟩ := faithful_record.list.yields bytes records rest hread
      exact ⟨hfits, forall_mem_contents.1 hvalues⟩
    · exact .map faithful_patch.yields
    · exact .failure

theorem faithful_accepted : Faithful writeAccepted readAccepted Accepted.Fits
    (fun a => a.hydration.values) := by
  refine ⟨fun a h hc => ?_, ?_⟩
  · have hhydration := faithful_hydration.reads a.hydration h.hydration hc
    have hread : Reads readAccepted (writeNat a.clock ++ (writeNat a.schemaVersion ++
        (writeBool a.resumed ++ (writeHydration a.hydration ++ [])))) a :=
      .bind (reads64 h.clock) (.bind (reads32 h.schemaVersion)
        (.bind (reads_bool a.resumed) (.bind hhydration (.pure _))))
    exact hread.of_eq (by simp [writeAccepted])
  · exact .bind yields64 fun clock hclock => .bind yields32 fun version hversion =>
      .bind (.any readBool) fun resumed _ => .bind faithful_hydration.yields
        fun hydration hhydration => .pure ⟨⟨hclock, hversion, hhydration.1⟩, hhydration.2⟩

theorem reads_rejectReason (reason : RejectReason) :
    Reads readRejectReason (writeRejectReason reason) reason := by
  intro rest
  cases reason with
  | schemaMismatch side => cases side <;> rfl
  | roomFull => rfl
  | forbidden => rfl

theorem faithful_serverMessage :
    Faithful writeServerMessage readServerMessage ServerMessage.Fits ServerMessage.values := by
  refine ⟨fun m h hc => ?_, ?_⟩
  · cases m with
    | connected accepted =>
      exact .bind (reads32 (by decide))
        ((faithful_accepted.reads accepted h hc).map ServerMessage.connected)
    | rejectConnect reason =>
      exact .bind (reads32 (by decide))
        ((reads_rejectReason reason).map ServerMessage.rejectConnect)
    | data batch =>
      exact .bind (reads32 (by decide))
        ((faithful_dataMessage.list.reads batch h hc).map ServerMessage.data)
    | pong => exact fun rest => rfl
    | error message =>
      exact .bind (reads32 (by decide)) ((reads_text h).map ServerMessage.error)
  · refine .bind yields32 fun tag _ => ?_
    split
    · exact .map faithful_accepted.yields
    · exact .map fun _ _ _ _ => ⟨trivial, List.forall_mem_nil _⟩
    · exact .map faithful_dataMessage.list.yields
    · exact .pure ⟨trivial, List.forall_mem_nil _⟩
    · exact .map fun bytes message rest hread =>
        ⟨yields_text bytes message rest hread, List.forall_mem_nil _⟩
    · exact .failure

theorem readFrame_eq_ok {read : Reader α} {bytes : Bytes} {a : α} :
    readFrame read bytes = .ok a ↔ read bytes = some (a, []) := by
  unfold readFrame
  split
  · simp [*]
  · simp [*]
  · rename_i rest hrest heq
    simp only [heq, reduceCtorEq, Option.some.injEq, Prod.mk.injEq, false_iff, not_and]
    exact fun _ => hrest

section
variable {write : α → Bytes} {read : Reader α} {fits : α → Prop} {values : α → List Content}
  (h : Faithful write read fits values)
include h

theorem Faithful.readFrame_write {a : α} (hfits : fits a)
    (hvalues : ∀ c ∈ values a, c.Portable) : readFrame read (write a) = .ok a := by
  have hread := h.reads a hfits hvalues []
  rw [List.append_nil] at hread
  exact readFrame_eq_ok.2 hread

theorem Faithful.readFrame_again {a : α} {bytes : Bytes} (hread : readFrame read bytes = .ok a)
    (hvalues : ∀ c ∈ values a, c.Printable) : readFrame read (write a) = .ok a := by
  obtain ⟨hfits, hshallow⟩ := h.yields bytes a [] (readFrame_eq_ok.1 hread)
  exact h.readFrame_write hfits fun c hc => ⟨hshallow c hc, hvalues c hc⟩

end

end Wire

/-- A message is read back from its frame, and what was read from a frame is read back from the
frame that it is written as. -/
theorem decode_encode :
    (∀ m : ClientMessage, m.Fits → (∀ c ∈ m.values, c.Portable) →
      ClientMessage.decode m.encode = .ok m) ∧
    (∀ m : ServerMessage, m.Fits → (∀ c ∈ m.values, c.Portable) →
      ServerMessage.decode m.encode = .ok m) ∧
    (∀ (frame : Wire.Bytes) (m : ClientMessage), ClientMessage.decode frame = .ok m →
      (∀ c ∈ m.values, c.Printable) → ClientMessage.decode m.encode = .ok m) ∧
    (∀ (frame : Wire.Bytes) (m : ServerMessage), ServerMessage.decode frame = .ok m →
      (∀ c ∈ m.values, c.Printable) → ServerMessage.decode m.encode = .ok m) := by
  refine ⟨fun m hfits hvalues => ?_, fun m hfits hvalues => ?_, fun frame m hframe hvalues => ?_,
    fun frame m hframe hvalues => ?_⟩
  · exact Wire.faithful_clientMessage.readFrame_write hfits hvalues
  · exact Wire.faithful_serverMessage.readFrame_write hfits hvalues
  · exact Wire.faithful_clientMessage.readFrame_again hframe hvalues
  · exact Wire.faithful_serverMessage.readFrame_again hframe hvalues

def label : Content :=
  .object [("at", .array [.int (-2 ^ 63), .float ⟨false, 7 * 2 ^ 50, -51⟩]),
    ("text", .text "\"é\"\n")]

def labelPush : Push :=
  ⟨"key", 250, [⟨"id", .upsert "label" label⟩, ⟨"gone", .delete⟩], some (.object [])⟩

theorem labelPush_fits : labelPush.Fits where
  sessionKey := by decide
  pushId := by decide
  count := by decide
  mutations := List.forall_mem_cons.2 ⟨⟨by decide, (by decide : Wire.TextFits "label")⟩,
    List.forall_mem_singleton.2 ⟨by decide, trivial⟩⟩

def labelPatch : Patch :=
  ⟨2 ^ 16, 2 ^ 32, Table.empty.insert "key" (.put ⟨"id", "label", label, 251⟩)⟩

theorem labelPatch_fits : labelPatch.Fits where
  fromClock := by decide
  toClock := by decide
  count := by decide
  changes := List.forall_mem_singleton.2 ⟨by decide, by decide, by decide, by decide⟩

/-- The last two frames are not as they would be written: one has blanks and a needless zero in its
content, the other has a longer number than needed. -/
theorem decode_encode_label :
    ClientMessage.decode (ClientMessage.push labelPush).encode = .ok (.push labelPush) ∧
    ServerMessage.decode (ServerMessage.data [.patch labelPatch]).encode =
      .ok (.data [.patch labelPatch]) ∧
    ClientMessage.decode [1, 1, 107, 7, 0, 1, 6, 32, 51, 46, 53, 48, 32] =
      .ok (.push ⟨"k", 7, [], some (.float ⟨false, 7 * 2 ^ 50, -51⟩)⟩) ∧
    ClientMessage.decode
        (ClientMessage.push ⟨"k", 7, [], some (.float ⟨false, 7 * 2 ^ 50, -51⟩)⟩).encode =
      .ok (.push ⟨"k", 7, [], some (.float ⟨false, 7 * 2 ^ 50, -51⟩)⟩) ∧
    ServerMessage.decode [251, 3, 0] = .ok .pong ∧
    ServerMessage.decode ServerMessage.pong.encode = .ok .pong := by
  obtain ⟨hclient, hserver, hclientFrame, hserverFrame⟩ := decode_encode
  have hframe : ClientMessage.decode [1, 1, 107, 7, 0, 1, 6, 32, 51, 46, 53, 48, 32] =
      .ok (.push ⟨"k", 7, [], some (.float ⟨false, 7 * 2 ^ 50, -51⟩)⟩) := by
    rw [ClientMessage.decode, Wire.readFrame_eq_ok]
    decide +kernel
  have hpatch : (ServerMessage.data [.patch labelPatch]).Fits :=
    ⟨by decide, List.forall_mem_singleton.2 labelPatch_fits⟩
  exact ⟨hclient _ labelPush_fits (by decide +kernel), hserver _ hpatch (by decide +kernel),
    hframe, hclientFrame _ _ hframe (by decide +kernel), rfl,
    hserverFrame [251, 3, 0] _ rfl (List.forall_mem_nil _)⟩

end RoomSync
