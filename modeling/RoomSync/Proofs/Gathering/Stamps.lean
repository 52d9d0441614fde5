import RoomSync.Proofs.Gathering.Attuned

namespace RoomSync

open Table Room LiveRoom

theorem Owes.oldest {d : Draft} {made : Push} {pushes : List Push} {unsent : List PendingPush}
    (h : Owes d (made :: pushes) unsent) {p : PendingPush} (hp : p ∈ d.pending)
    (hpush : p.pushId = made.pushId) : made = ⟨made.sessionKey, p.pushId, p.mutations, none⟩ := by
  have hpresence : made.presence = none := by
    refine Option.not_isSome_iff_eq_none.1 fun hsome => ?_
    obtain ⟨-, -, hne⟩ := h.presence made List.mem_cons_self hsome
    exact hne p hp hpush
  have hmem : ⟨made.pushId, made.mutations⟩ ∈ d.pending := by
    rw [h.documents, documentPushes, List.filterMap_cons, hpresence]
    exact List.mem_cons_self
  obtain rfl : ⟨made.pushId, made.mutations⟩ = p := h.numbered.eq_of_pushId hmem hp hpush.symm
  rw [← hpresence]

theorem Draft.lastPending?_settle_eq_none {d : Draft} {result : PushResult} {id : RecordId}
    (h : ∀ q ∈ d.pending, q.pushId ≠ result.pushId → ∀ m ∈ q.mutations, m.recordId ≠ id) :
    (d.settle result).1.lastPending? id = none := by
  refine lastEdit?_eq_none_iff.2 fun m hm => ?_
  obtain ⟨q, hq, hm⟩ := List.mem_flatMap.1 hm
  obtain ⟨hq, hne⟩ := List.mem_filter.1 hq
  exact h q hq (of_decide_eq_true hne) m hm

namespace Gathering

variable {σ : Type} [Host σ] {g : Gathering σ} {key : String} {push : Push} {result : PushResult}

/-- In the course of a run the room takes a push of a member in one state, and is in another one when
it has answered. -/
def Exchange (g : Gathering σ) (incidents : List (Nat × Incident σ)) (key : String) (push : Push)
    (result : PushResult) (l l' : LiveRoom (Journal σ)) : Prop :=
  ∃ first now incident rest, incidents = first ++ (now, incident) :: rest ∧
    (g.undergoAll first).Answers now incident key push result ∧ (g.undergoAll first).live = l ∧
    ((g.undergoAll first).undergo now incident).live = l'

theorem exists_exchange {incidents : List (Nat × Incident σ)}
    (h : g.Answered key push result incidents) :
    ∃ l l', g.Exchange incidents key push result l l' := by
  induction incidents generalizing g with
  | nil => exact h.elim
  | cons incident rest ih =>
    obtain h | h := h
    · exact ⟨_, _, [], incident.1, incident.2, rest, rfl, h, rfl, rfl⟩
    · obtain ⟨l, l', first, now, last, rest', he, h⟩ := ih h
      exact ⟨l, l', incident :: first, now, last, rest', congrArg (incident :: ·) he, h⟩

theorem Answers.live {now : Nat} {incident : Incident σ}
    (h : g.Answers now incident key push result) :
    (g.undergo now incident).live = (g.live.receivePush key push now).1 := by
  obtain ⟨⟨i, msg⟩, hout, hmsg⟩ := Option.map_eq_some_iff.1 h.said
  obtain rfl : msg = .push push := hmsg
  rw [h.heard, undergo, Gathering.step, hout]
  exact heed_push h.answer

theorem Exchange.sessionKey {incidents : List (Nat × Incident σ)} {l l' : LiveRoom (Journal σ)}
    (h : g.Exchange incidents key push result l l') : push.sessionKey = key := by
  obtain ⟨_, _, _, _, -, ha, -, -⟩ := h
  obtain ⟨_, -, -, hkey, -⟩ := made_of_receivePush ha.answer
  exact hkey

theorem Exchange.wrote {room : Room} (hplaced : room.Placed)
    (hnew : ∀ key, room.session? key = none) {host : σ} {incidents : List (Nat × Incident σ)}
    {l l' : LiveRoom (Journal σ)} (h : (start room host).Exchange incidents key push result l l')
    {id : RecordId} {e : Edit} (he : lastEdit? push.mutations id = some e)
    (hno : ∀ rejection ∈ result.rejected, rejection.recordId ≠ id) :
    Wrote l.room l'.room result id e := by
  obtain ⟨first, now, incident, rest, -, ha, rfl, rfl⟩ := h
  rw [ha.live]
  have hattuned := (attuned_start hplaced hnew host).undergoAll first
  exact wrote_of_receivePush hattuned.placed ha.answer he hno

end Gathering

/-- A result that settles a push of a member was given by the room when it took that push. For what the
result does not reject, under an id that no other unsettled push touches, it makes the record of the
member that of the room then, stamp included, exactly if whatever a rejection has restored there since
the unsettled pushes were last laid over the copy is what the push leaves, and the room did not have
that value already with another stamp. -/
theorem settled_equal_iff {σ : Type} [Host σ] (config : Config) (snapshot : Snapshot) (host : σ)
    {incidents : List (Nat × Incident σ)} {start g : Gathering σ}
    (hstart : Gathering.start (.ofSnapshot config snapshot) host = start)
    (hg : start.undergoAll incidents = g) {key : String} {d copy : Draft}
    {before after : List DataMessage} {result : PushResult}
    (hread : g.folded? (.reads key) = some (d, before ++ .pushResult result :: after))
    (hcopy : (d.foldBatch before).1 = copy) {p : PendingPush} (hp : p ∈ copy.pending)
    (hpush : p.pushId = result.pushId) :
    let made : Push := ⟨key, p.pushId, p.mutations, none⟩
    let restored := (before.foldl Watch.data (Watch.run key (start.inputs key incidents))).restored
    (∃ l l', start.Exchange incidents key made result l l') ∧
      ∀ l l', start.Exchange incidents key made result l l' →
        ∀ id e, lastEdit? p.mutations id = some e →
          (∀ rejection ∈ result.rejected, rejection.recordId ≠ id) →
          (∀ q ∈ copy.pending, q.pushId ≠ p.pushId → ∀ m ∈ q.mutations, m.recordId ≠ id) →
          (Option.Rel Record.Equal ((copy.settle result).1.replica.get? id)
              (l'.room.store.records.get? id) ↔
            (∀ current, restored.get? id = some current → Agrees e.value current) ∧
              ∀ record, l.room.store.records.get? id = some record →
                Agrees e.value (some record) → record.stamp = result.clock) := by
  intro made restored
  have hplaced := placed_ofSnapshot config snapshot
  have hnew : ∀ key, (ofSnapshot config snapshot).session? key = none := fun _ => rfl
  have hattuned := (Gathering.attuned_start hplaced hnew host).undergoAll incidents
  rw [hstart, hg] at hattuned
  obtain ⟨rfl, pushed, pushes, unsent, hledger, hsound, howes⟩ := hattuned.settles hread
  have hanswers := hattuned.answers key pushed result hledger
  obtain ⟨l₀, l₀', hexchange⟩ := Gathering.exists_exchange (hledger.resolve_left id)
  rw [← Watch.draft_foldl_data] at hcopy
  rw [← hcopy] at hp ⊢
  -- The push that the result answers is the one that it settles.
  have hmade := howes.oldest hp (hpush.trans hanswers.pushId)
  rw [hexchange.sessionKey] at hmade
  subst hmade
  refine ⟨⟨l₀, l₀', hexchange⟩, fun l l' hexchange id e he hno hothers => ?_⟩
  rw [← hstart] at hexchange
  obtain ⟨hagrees, hnamed, hstamped⟩ := hexchange.wrote hplaced hnew he hno
  have hlast := Draft.lastPending?_settle_eq_none fun q hq hne => hothers q hq (hpush ▸ hne)
  rw [hsound.settled_iff howes hanswers he hno hlast hnamed hagrees, hstamped]
  rfl

def Gathering.firstPush (mutations : List Mutation) : List (Nat × Incident Unit) := [
  (0, .within (.joins "k" "" "notes" Config.notes.schema)), (0, .within (.dials "k")),
  (0, .within (.getsThrough "k" .null)), (0, .within (.isHeard "k")), (0, .within (.reads "k")),
  (1, .within (.pushes "k" mutations)), (1, .within (.isHeard "k"))]

/-- A note that changes has the stamp of the room once the result has come. -/
theorem settled_equal_after_change :
    let old : Snapshot := ⟨5, [⟨"n", "note", .object [], 1⟩]⟩
    let note : List Mutation := [⟨"n", .upsert "note" (.object [("x", .int 1)])⟩]
    let start := Gathering.start (.ofSnapshot .notes old) ()
    let incidents := Gathering.firstPush note
    let result : PushResult := ⟨1, 6, []⟩
    ∃ d l l', (start.undergoAll incidents).folded? (.reads "k") = some (d, [.pushResult result]) ∧
      start.Exchange incidents "k" ⟨"k", 1, note, none⟩ result l l' ∧
      Option.Rel Record.Equal ((d.settle result).1.replica.get? "n")
        (l'.room.store.records.get? "n") := by
  intro old note start incidents result
  have hread : ∃ folded ∈ (start.undergoAll incidents).folded? (.reads "k"),
      folded.2 = [.pushResult result] ∧ folded.1.pending = [⟨1, note⟩] := by decide +kernel
  obtain ⟨⟨d, batch⟩, hread, rfl, hpending⟩ := hread
  have hexchange : start.Exchange incidents "k" ⟨"k", 1, note, none⟩ result _ _ :=
    ⟨incidents.take 6, 1, .within (.isHeard "k"), [], rfl, ⟨rfl, by decide +kernel, by decide +kernel⟩,
      rfl, rfl⟩
  have hstart : Gathering.start (.ofSnapshot .notes old) () = start := rfl
  have hbatch : (start.undergoAll incidents).folded? (.reads "k") =
    some (d, [] ++ .pushResult result :: []) := hread
  have hp : ⟨1, note⟩ ∈ d.pending := hpending ▸ List.mem_cons_self
  have hothers : ∀ q ∈ d.pending, q.pushId ≠ 1 → ∀ m ∈ q.mutations, m.recordId ≠ "n" := by
    rw [hpending]
    rintro q (_ | ⟨_, ⟨⟩⟩) hne
    exact absurd rfl hne
  have hrestored : (Watch.run "k" (start.inputs "k" incidents)).restored.get? "n" = none := by
    decide +kernel
  have hroom : (start.undergoAll (incidents.take 6)).live.room.store.records.get? "n" =
    some ⟨"n", "note", .object [], 1⟩ := by decide +kernel
  obtain ⟨-, hiff⟩ := settled_equal_iff .notes old () hstart rfl hbatch rfl hp rfl
  refine ⟨d, _, _, hread, hexchange,
    (hiff _ _ hexchange "n" _ rfl nofun hothers).2 ⟨fun current hc => ?_, fun record hr ha => ?_⟩⟩
  · cases hrestored.symm.trans hc
  · obtain rfl := Option.some.inj (hroom.symm.trans hr)
    have hsame : Record.sameValue ⟨"n", "note", .object [], 1⟩ "note" (.object [("x", .int 1)]) =
      true := ha
    cases hsame.symm.trans (by decide : Record.sameValue _ _ _ = false)

/-- The room has the note already and keeps its stamp, and the member puts the clock of the result
there. -/
theorem unchanged_note_takes_clock_of_result :
    let old : Snapshot := ⟨5, [⟨"n", "note", .object [], 1⟩]⟩
    let note : List Mutation := [⟨"n", .upsert "note" (.object [])⟩]
    let start := Gathering.start (.ofSnapshot .notes old) ()
    let incidents := Gathering.firstPush note
    let result : PushResult := ⟨1, 5, []⟩
    ∃ d l l', (start.undergoAll incidents).folded? (.reads "k") = some (d, [.pushResult result]) ∧
      d.pending = [⟨1, note⟩] ∧ start.Exchange incidents "k" ⟨"k", 1, note, none⟩ result l l' ∧
      ¬Option.Rel Record.Equal ((d.settle result).1.replica.get? "n")
        (l'.room.store.records.get? "n") := by
  intro old note start incidents result
  have hread : ∃ folded ∈ (start.undergoAll incidents).folded? (.reads "k"),
      folded.2 = [.pushResult result] ∧ folded.1.pending = [⟨1, note⟩] ∧
        (folded.1.settle result).1.replica.get? "n" = some ⟨"n", "note", .object [], 5⟩ := by
    decide +kernel
  obtain ⟨⟨d, batch⟩, hread, rfl, hpending, hshown⟩ := hread
  refine ⟨d, _, _, hread, hpending, ⟨incidents.take 6, 1, .within (.isHeard "k"), [], rfl,
    ⟨rfl, by decide +kernel, by decide +kernel⟩, rfl, rfl⟩, ?_⟩
  have hroom : (((start.undergoAll (incidents.take 6)).undergo 1
      (.within (.isHeard "k"))).live.room.store.records.get? "n") =
        some ⟨"n", "note", .object [], 1⟩ := by decide +kernel
  rw [hroom, hshown]
  rintro (h | _)
  cases h.stamp

end RoomSync
