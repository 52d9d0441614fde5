import RoomSync.Proofs.Draft.Overlay

namespace RoomSync

open Table

namespace Draft

inductive Input where
  | push (mutations : List Mutation)
  | presence
  | receive (msg : ServerMessage)
deriving DecidableEq, Inhabited

def take (d : Draft) : Input → Draft
  | .push mutations => (d.push mutations).1
  | .presence => d.allot.1
  | .receive msg => (d.fold msg).draft

def takeAll (d : Draft) (inputs : List Input) : Draft := inputs.foldl take d

/-- The results in a batch come in the order of the pushes: none comes while an earlier push is
unsettled. -/
def InOrder (d : Draft) : List DataMessage → Prop
  | [] => True
  | msg :: rest =>
    (∀ result, msg = .pushResult result → ∀ p ∈ d.pending, result.pushId ≤ p.pushId) ∧
      (d.foldData msg).1.InOrder rest

def Orderly (d : Draft) : List Input → Prop
  | [] => True
  | input :: rest =>
    (∀ batch, input = .receive (.data batch) → d.InOrder batch) ∧ (d.take input).Orderly rest

end Draft

/-- A working copy, with what rejections have restored in it since its unsettled pushes were last
laid over it. -/
structure Watch where
  draft : Draft
  restored : Table (Option Record)

namespace Watch

def data (w : Watch) (msg : DataMessage) : Watch :=
  ⟨(w.draft.foldData msg).1,
    match msg with
    | .patch _ => if (w.draft.foldData msg).2.isSome then Table.empty else w.restored
    | .pushResult result => w.restored.insertAll result.restores⟩

def take (w : Watch) : Draft.Input → Watch
  | .push mutations =>
    ⟨(w.draft.push mutations).1, w.restored.filter fun id _ => (lastEdit? mutations id).isNone⟩
  | .presence => { w with draft := w.draft.allot.1 }
  | .receive (.connected accepted) => ⟨w.draft.hydrate accepted, Table.empty⟩
  | .receive (.data batch) => batch.foldl data w
  | .receive _ => w

def run (key : String) (inputs : List Draft.Input) : Watch :=
  inputs.foldl take ⟨.start key, Table.empty⟩

theorem draft_foldl_data (w : Watch) (batch : List DataMessage) :
    (batch.foldl data w).draft = (w.draft.foldBatch batch).1 := by
  induction batch generalizing w with
  | nil => rfl
  | cons msg rest ih => exact ih _

theorem draft_take (w : Watch) (input : Draft.Input) : (w.take input).draft = w.draft.take input := by
  cases input with
  | push mutations => rfl
  | presence => rfl
  | receive msg =>
    cases msg with
    | data batch => exact draft_foldl_data w batch
    | _ => rfl

theorem draft_foldl_take (w : Watch) (inputs : List Draft.Input) :
    (inputs.foldl take w).draft = w.draft.takeAll inputs := by
  induction inputs generalizing w with
  | nil => rfl
  | cons input rest ih => rw [List.foldl_cons, ih, draft_take, Draft.takeAll, Draft.takeAll,
      List.foldl_cons]

/-- Under an id that an unsettled push writes, the copy shows what was restored last, and the last
edit if nothing was. -/
structure Faithful (w : Watch) : Prop where
  numbered : w.draft.Numbered
  shows : ∀ id e, w.draft.lastPending? id = some e →
    w.draft.replica.values.get? id = (w.restored.get? id).elim e.value (Option.map Record.value)

theorem faithful_start (key : String) : Faithful ⟨.start key, Table.empty⟩ :=
  ⟨Draft.numbered_start key, fun _ _ h => nomatch h⟩

theorem faithful_rebase {d : Draft} (h : d.Numbered) (replica : Replica) :
    Faithful ⟨d.rebase replica, Table.empty⟩ := by
  refine ⟨h.rebase replica, fun id e he => ?_⟩
  have he : d.lastPending? id = some e := he
  rw [Draft.get?_values_rebase, he]
  rfl

theorem Faithful.push {w : Watch} (h : w.Faithful) (mutations : List Mutation) :
    (w.take (.push mutations)).Faithful := by
  refine ⟨h.numbered.push mutations, fun id e he => ?_⟩
  change (w.draft.push mutations).1.lastPending? id = some e at he
  change (w.draft.push mutations).1.replica.values.get? id = _
  rw [take, get?_filter]
  rw [Draft.lastPending?_push] at he
  rw [Draft.get?_values_push]
  cases hm : lastEdit? mutations id with
  | some last =>
    rw [hm, Option.some_or] at he
    obtain rfl := Option.some.inj he
    cases w.restored.get? id <;> simp [Option.filter]
  | none =>
    rw [hm, Option.none_or] at he
    rw [Option.elim_none, h.shows id e he]
    cases w.restored.get? id <;> simp [Option.filter]

/-- Whatever is settled, as long as a later push than the settled one has the last word on an id. -/
theorem Faithful.settle_of {w : Watch} (h : w.Faithful) {result : PushResult}
    (hlast : ∀ id e, (w.draft.settle result).1.lastPending? id = some e →
      w.draft.lastPending? id = some e) : (w.data (.pushResult result)).Faithful := by
  refine ⟨h.numbered.settle result, fun id e he => ?_⟩
  have he := hlast id e he
  change (w.draft.settle result).1.replica.values.get? id = _
  rw [Draft.get?_values_settle, data, get?_insertAll]
  cases Entries.last? id result.restores with
  | some current => rfl
  | none => exact h.shows id e he

theorem Faithful.settle {w : Watch} (h : w.Faithful) {result : PushResult}
    (horder : ∀ p ∈ w.draft.pending, result.pushId ≤ p.pushId) :
    (w.data (.pushResult result)).Faithful :=
  h.settle_of fun _ _ => Draft.lastPending?_settle h.numbered horder

theorem Faithful.patch {w : Watch} (h : w.Faithful) (patch : Patch) :
    (w.data (.patch patch)).Faithful := by
  unfold Watch.data
  obtain he | ⟨replica, event, he⟩ := Draft.foldData_patch_cases w.draft patch
  · rw [he]
    exact h
  · rw [he]
    exact faithful_rebase h.numbered replica

theorem Faithful.data {w : Watch} (h : w.Faithful) {msg : DataMessage}
    (horder : ∀ result, msg = .pushResult result → ∀ p ∈ w.draft.pending,
      result.pushId ≤ p.pushId) : (w.data msg).Faithful := by
  cases msg with
  | pushResult result => exact h.settle (horder result rfl)
  | patch patch => exact h.patch patch

theorem Faithful.hydrate {w : Watch} (h : w.Faithful) (accepted : Accepted) :
    (w.take (.receive (.connected accepted))).Faithful :=
  faithful_rebase (d := { w.draft with synced := true })
    ⟨h.numbered.ascending, h.numbered.allotted⟩ _

theorem Faithful.batch {w : Watch} (h : w.Faithful) {batch : List DataMessage}
    (horder : w.draft.InOrder batch) : (batch.foldl Watch.data w).Faithful := by
  induction batch generalizing w with
  | nil => exact h
  | cons msg rest ih => exact ih (h.data horder.1) horder.2

theorem Faithful.take {w : Watch} (h : w.Faithful) {input : Draft.Input}
    (horder : ∀ batch, input = .receive (.data batch) → w.draft.InOrder batch) :
    (w.take input).Faithful := by
  cases input with
  | push mutations => exact h.push mutations
  | presence => exact ⟨h.numbered.allot, h.shows⟩
  | receive msg =>
    cases msg with
    | connected accepted => exact h.hydrate accepted
    | data batch => exact h.batch (horder batch rfl)
    | rejectConnect reason => exact h
    | pong => exact h
    | error message => exact h

theorem Faithful.takeAll {w : Watch} (h : w.Faithful) {inputs : List Draft.Input}
    (horder : w.draft.Orderly inputs) : (inputs.foldl Watch.take w).Faithful := by
  induction inputs generalizing w with
  | nil => exact h
  | cons input rest ih =>
    refine ih (h.take horder.1) ?_
    rw [draft_take]
    exact horder.2

end Watch

/-- Under an id that an unsettled push writes, a working copy shows the last unsettled edit exactly
if whatever a rejection has restored there, since the pushes were last laid over the replica, is
what that edit leaves. -/
theorem shows_lastPending_iff (key : String) {inputs : List Draft.Input}
    (h : (Draft.start key).Orderly inputs) {id : RecordId} {e : Edit}
    (he : ((Draft.start key).takeAll inputs).lastPending? id = some e) :
    ((Draft.start key).takeAll inputs).replica.values.get? id = e.value ↔
      ∀ current, (Watch.run key inputs).restored.get? id = some current →
        current.map Record.value = e.value := by
  have hf : (Watch.run key inputs).Faithful := (Watch.faithful_start key).takeAll h
  have hd : (Watch.run key inputs).draft = (Draft.start key).takeAll inputs :=
    Watch.draft_foldl_take ..
  have hs := hf.shows id e (hd ▸ he)
  rw [hd] at hs
  rw [hs]
  cases (Watch.run key inputs).restored.get? id with
  | none => simp
  | some current => simp

/-- The second push has the record, and the first one, which was refused, takes it away again. -/
theorem refusal_hides_later_push :
    let later : Edit := .upsert "note" (.object [("x", .int 1)])
    let inputs : List Draft.Input :=
      [.push [⟨"n", .upsert "note" (.object [])⟩], .push [⟨"n", later⟩],
        .receive (.data [.pushResult ⟨1, 0, [⟨"n", .missingField "x", none⟩]⟩])]
    let d := (Draft.start "k").takeAll inputs
    (Draft.start "k").Orderly inputs ∧ d.lastPending? "n" = some later ∧
      d.replica.values.get? "n" ≠ later.value := by
  refine ⟨?_, by decide, by decide⟩
  refine ⟨nofun, nofun, ?_, trivial⟩
  rintro batch h
  obtain rfl : _ = batch := ServerMessage.data.inj (Draft.Input.receive.inj h)
  refine ⟨?_, trivial⟩
  rintro result h
  obtain rfl := DataMessage.pushResult.inj h
  decide

/-- A patch that comes after the refusal lays the second push over the replica again. -/
theorem shows_lastPending_after_patch :
    let later : Edit := .upsert "note" (.object [("x", .int 1)])
    let inputs : List Draft.Input :=
      [.push [⟨"n", .upsert "note" (.object [])⟩], .push [⟨"n", later⟩],
        .receive (.data [.pushResult ⟨1, 0, [⟨"n", .missingField "x", none⟩]⟩,
          .patch ⟨0, 1, Table.empty⟩])]
    ((Draft.start "k").takeAll inputs).replica.values.get? "n" = later.value := by
  intro later inputs
  have h : (Draft.start "k").Orderly inputs := by
    refine ⟨nofun, nofun, ?_, trivial⟩
    rintro batch h
    obtain rfl : _ = batch := ServerMessage.data.inj (Draft.Input.receive.inj h)
    refine ⟨?_, nofun, trivial⟩
    rintro result h
    obtain rfl := DataMessage.pushResult.inj h
    decide
  have he : ((Draft.start "k").takeAll inputs).lastPending? "n" = some later := by decide
  refine (shows_lastPending_iff "k" h he).2 ?_
  have hr : (Watch.run "k" inputs).restored.get? "n" = none := by decide
  rw [hr]
  nofun

end RoomSync
