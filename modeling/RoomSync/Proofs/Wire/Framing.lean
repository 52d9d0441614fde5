import RoomSync.Proofs.Wire.Message

namespace RoomSync

namespace Wire

variable {α β : Type}

/-- Whatever the reader returns, it returns for the bytes that it took, whatever follows them. -/
def Delimits (read : Reader α) : Prop :=
  ∀ bytes a rest, read bytes = some (a, rest) → ∃ taken, bytes = taken ++ rest ∧ Reads read taken a

section
variable {read : Reader α} {f : α → Reader β}

theorem Delimits.pure (a : α) : Delimits (Pure.pure a : Reader α) := by
  intro bytes b rest h
  cases h
  exact ⟨[], rfl, .pure a⟩

theorem Delimits.failure : Delimits (failure : Reader α) := nofun

theorem Delimits.bind (h : Delimits read) (hf : ∀ a, Delimits (f a)) : Delimits (read >>= f) := by
  intro bytes b rest hread
  obtain ⟨⟨a, left⟩, ha, hb⟩ := Option.bind_eq_some_iff.1 hread
  obtain ⟨first, hbytes, hfirst⟩ := h bytes a left ha
  obtain ⟨second, hleft, hsecond⟩ := hf a left b rest hb
  exact ⟨first ++ second, by rw [hbytes, hleft, List.append_assoc], hfirst.bind hsecond⟩

theorem Delimits.map (h : Delimits read) (g : α → β) : Delimits (g <$> read) :=
  h.bind fun a => .pure (g a)

theorem Delimits.ite {c : Prop} [Decidable c] {read other : Reader α} (h : Delimits read)
    (h' : Delimits other) : Delimits (if c then read else other) := by
  split
  · exact h
  · exact h'

end

theorem delimits_byte : Delimits readByte := by
  intro bytes b rest h
  cases bytes with
  | nil => cases h
  | cons first left =>
    cases h
    exact ⟨[b], rfl, reads_byte b⟩

theorem delimits_bytes (count : Nat) : Delimits (readBytes count) := by
  intro bytes taken rest h
  simp only [readBytes] at h
  split at h
  · rename_i hlength
    cases h
    have hreads := reads_bytes (bytes.take count)
    rw [hlength] at hreads
    exact ⟨_, (List.take_append_drop ..).symm, hreads⟩
  · cases h

theorem delimits_fixed (count : Nat) : Delimits (readFixed count) := by
  induction count with
  | zero => exact .pure 0
  | succ count ih => exact delimits_byte.bind fun _ => ih.bind fun _ => .pure _

theorem delimits_nat (width : Nat) : Delimits (readNat width) :=
  delimits_byte.bind fun _ => .ite (.pure _) <| .ite (delimits_fixed 2) <|
    .ite (delimits_fixed 4) <| .ite (delimits_fixed 8) .failure

theorem delimits32 : Delimits read32 := delimits_nat 4

theorem delimits64 : Delimits read64 := delimits_nat 8

theorem delimits_bool : Delimits readBool :=
  delimits_byte.bind fun _ => .ite (.pure _) (.ite (.pure _) .failure)

theorem delimits_option {read : Reader α} (h : Delimits read) : Delimits (readOption read) :=
  delimits_bool.bind fun _ => .ite (h.map some) (.pure none)

theorem delimits_text : Delimits readText :=
  delimits64.bind fun count => (delimits_bytes count).bind fun bytes => by
    split
    · exact .pure _
    · exact .failure

theorem delimits_items {read : Reader α} (h : Delimits read) (count : Nat) :
    Delimits (readItems read count) := by
  induction count with
  | zero => exact .pure []
  | succ count ih => exact h.bind fun _ => ih.bind fun _ => .pure _

theorem delimits_list {read : Reader α} (h : Delimits read) : Delimits (readList read) :=
  delimits64.bind fun count => delimits_items h count

theorem delimits_table {read : Reader α} (h : Delimits read) : Delimits (readTable read) :=
  (delimits_list (delimits_text.bind fun _ => h.bind fun _ => .pure _)).map Table.ofList

theorem delimits_content : Delimits readContent :=
  delimits_text.bind fun text => by
    split
    · exact .pure _
    · exact .failure

theorem delimits_record : Delimits readRecord :=
  delimits_text.bind fun _ => delimits_text.bind fun _ => delimits_content.bind fun _ =>
    delimits64.bind fun _ => .pure _

theorem delimits_edit : Delimits readEdit :=
  delimits32.bind fun tag => by
    split
    · exact delimits_text.bind fun _ => delimits_content.bind fun _ => .pure _
    · exact .pure _
    · exact .failure

theorem delimits_mutation : Delimits readMutation :=
  delimits_text.bind fun _ => delimits_edit.bind fun _ => .pure _

theorem delimits_summary : Delimits readSummary :=
  delimits32.bind fun _ => (delimits_list delimits_text).bind fun _ => .pure _

theorem delimits_connectRequest : Delimits readConnectRequest :=
  delimits_text.bind fun _ => delimits_text.bind fun _ => delimits_summary.bind fun _ =>
    (delimits_option delimits64).bind fun _ => .pure _

theorem delimits_push : Delimits readPush :=
  delimits_text.bind fun _ => delimits64.bind fun _ => (delimits_list delimits_mutation).bind fun _ =>
    (delimits_option delimits_content).bind fun _ => .pure _

theorem delimits_clientMessage : Delimits readClientMessage :=
  delimits32.bind fun tag => by
    split
    · exact delimits_connectRequest.map _
    · exact delimits_push.map _
    · exact .pure _
    · exact .failure

theorem delimits_fieldKind : Delimits readFieldKind :=
  delimits32.bind fun tag => by
    split <;> first | exact .pure _ | exact .failure

theorem delimits_refusal : Delimits readRefusal :=
  delimits32.bind fun tag => by
    split
    · exact delimits_text.map _
    · exact delimits_text.map _
    · exact .pure _
    · exact delimits_text.map _
    · exact delimits_text.bind fun _ => delimits_fieldKind.bind fun _ => .pure _
    · exact .pure _
    · exact delimits_text.map _
    · exact .failure

theorem delimits_rejection : Delimits readRejection :=
  delimits_text.bind fun _ => delimits_refusal.bind fun _ =>
    (delimits_option delimits_record).bind fun _ => .pure _

theorem delimits_pushResult : Delimits readPushResult :=
  delimits64.bind fun _ => delimits64.bind fun _ => (delimits_list delimits_rejection).bind fun _ =>
    .pure _

theorem delimits_change : Delimits readChange :=
  delimits32.bind fun tag => by
    split
    · exact delimits_record.map _
    · exact .pure _
    · exact .failure

theorem delimits_patch : Delimits readPatch :=
  delimits64.bind fun _ => delimits64.bind fun _ => (delimits_table delimits_change).bind fun _ =>
    .pure _

theorem delimits_dataMessage : Delimits readDataMessage :=
  delimits32.bind fun tag => by
    split
    · exact delimits_patch.map _
    · exact delimits_pushResult.map _
    · exact .failure

theorem delimits_hydration : Delimits readHydration :=
  delimits32.bind fun tag => by
    split
    · exact (delimits_list delimits_record).map _
    · exact delimits_patch.map _
    · exact .failure

theorem delimits_accepted : Delimits readAccepted :=
  delimits64.bind fun _ => delimits32.bind fun _ => delimits_bool.bind fun _ =>
    delimits_hydration.bind fun _ => .pure _

theorem delimits_schemaMismatch : Delimits readSchemaMismatch :=
  delimits32.bind fun tag => by
    split <;> first | exact .pure _ | exact .failure

theorem delimits_rejectReason : Delimits readRejectReason :=
  delimits32.bind fun tag => by
    split
    · exact delimits_schemaMismatch.map _
    · exact .pure _
    · exact .pure _
    · exact .failure

theorem delimits_serverMessage : Delimits readServerMessage :=
  delimits32.bind fun tag => by
    split
    · exact delimits_accepted.map _
    · exact delimits_rejectReason.map _
    · exact (delimits_list delimits_dataMessage).map _
    · exact .pure _
    · exact delimits_text.map _
    · exact .failure

section
variable {read : Reader α} (h : Delimits read) {frame : Bytes} {a : α}
include h

theorem Delimits.reads_frame (hframe : readFrame read frame = .ok a) : Reads read frame a := by
  obtain ⟨taken, htaken, hreads⟩ := h frame a [] (readFrame_eq_ok.1 hframe)
  rw [List.append_nil] at htaken
  exact htaken ▸ hreads

theorem Delimits.readFrame_append (hframe : readFrame read frame = .ok a) {more : Bytes}
    (hmore : more ≠ []) : readFrame read (frame ++ more) = .error (.trailing more.length) := by
  have hreads := h.reads_frame hframe more
  unfold readFrame
  split
  · rename_i hnone
    cases hreads.symm.trans hnone
  · rename_i hall
    exact absurd (Prod.mk.inj (Option.some.inj (hreads.symm.trans hall))).2 hmore
  · rename_i rest _ hrest
    rw [(Prod.mk.inj (Option.some.inj (hreads.symm.trans hrest))).2]

theorem Delimits.readFrame_prefix (hframe : readFrame read frame = .ok a) {part : Bytes}
    (hpart : part <+: frame) (hne : part ≠ frame) : readFrame read part = .error .malformed := by
  obtain ⟨more, rfl⟩ := hpart
  cases hread : read part with
  | none => rw [readFrame, hread]
  | some found =>
    -- What the part has in front would be all that is read of the frame.
    obtain ⟨taken, rfl, hreads⟩ := h part found.1 found.2 hread
    have hall : some (found.1, found.2 ++ more) = some (a, []) := by
      rw [← readFrame_eq_ok.1 hframe, List.append_assoc, hreads]
    obtain ⟨-, hmore⟩ := List.append_eq_nil_iff.1 (Prod.mk.inj (Option.some.inj hall)).2
    exact absurd (by rw [hmore, List.append_nil]) hne

end

/-- A frame that is accepted is refused as soon as anything follows it, for exactly as many bytes as
there are too many, or as soon as anything is missing at its end. -/
structure SelfDelimiting (decode : Bytes → Except DecodeError α) : Prop where
  followed : ∀ frame a, decode frame = .ok a → ∀ more, more ≠ [] →
    decode (frame ++ more) = .error (.trailing more.length)
  cut : ∀ frame a, decode frame = .ok a → ∀ part, part <+: frame → part ≠ frame →
    decode part = .error .malformed

theorem Delimits.selfDelimiting {read : Reader α} (h : Delimits read) :
    SelfDelimiting (readFrame read) :=
  ⟨fun _ _ hframe _ => h.readFrame_append hframe, fun _ _ hframe _ => h.readFrame_prefix hframe⟩

end Wire

/-- The frames of both sides show where they end: none is cut short, continued or padded and still
taken for a message, and the error for what is too much names its length. -/
theorem frames_selfDelimiting :
    Wire.SelfDelimiting ClientMessage.decode ∧ Wire.SelfDelimiting ServerMessage.decode ∧
      ∀ count, (ProtocolError.decode (.trailing count)).message =
        s!"deserialization error: {count} trailing bytes" :=
  ⟨Wire.delimits_clientMessage.selfDelimiting, Wire.delimits_serverMessage.selfDelimiting,
    fun _ => rfl⟩

/-- A number in a longer form than needed, without its last byte and with one byte too many. -/
example : ServerMessage.decode [251, 3, 0] = .ok .pong ∧
    ServerMessage.decode [251, 3] = .error .malformed ∧
    ServerMessage.decode [251, 3, 0, 9] = .error (.trailing 1) := ⟨rfl, rfl, rfl⟩

end RoomSync
