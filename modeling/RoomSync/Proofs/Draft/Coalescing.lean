import RoomSync.Proofs.Draft.Alike
import RoomSync.Proofs.Outbox.Conservation

namespace RoomSync

open Table

def settlements (msgs : List DataMessage) : List PushResult :=
  msgs.filterMap fun
    | .patch _ => none
    | .pushResult result => some result

theorem settlements_append (msgs msgs' : List DataMessage) :
    settlements (msgs ++ msgs') = settlements msgs ++ settlements msgs' := List.filterMap_append ..

theorem settlements_of_merges {msgs merged : List DataMessage} (h : Merges msgs merged) :
    settlements merged = settlements msgs := by
  induction h with
  | refl msgs => rfl
  | @merge before after _ p q _ ih =>
    rw [ih, settlements_append, settlements_append]
    rfl

def SyncEvent.isSettled : SyncEvent → Bool
  | .pushSettled .. => true
  | .connected .. | .rejected _ | .remoteChanges .. | .pong | .serverError _ | .disconnected => false

def Advancing (msgs : List DataMessage) : Prop :=
  ∀ p, .patch p ∈ msgs → p.fromClock < p.toClock

def DataMessage.isPatch : DataMessage → Bool
  | .patch _ => true
  | .pushResult _ => false

def firstRun : List DataMessage → List Patch
  | .patch p :: rest => p :: firstRun rest
  | .pushResult _ :: _ | [] => []

def span? (msgs : List DataMessage) : Option (Nat × Nat) :=
  match firstRun msgs with
  | [] => none
  | p :: ps => some (p.fromClock, (ps.getLastD p).toClock)

theorem exists_after_firstRun (msgs : List DataMessage) :
    ∃ after, msgs = (firstRun msgs).map .patch ++ after ∧ firstRun after = [] := by
  induction msgs with
  | nil => exact ⟨[], rfl, rfl⟩
  | cons msg rest ih =>
    cases msg with
    | pushResult result => exact ⟨.pushResult result :: rest, rfl, rfl⟩
    | patch p =>
      obtain ⟨after, hrest, hafter⟩ := ih
      exact ⟨after, congrArg (.patch p :: ·) hrest, hafter⟩

theorem coalesce_run (p : Patch) (ps : List Patch) {after : List DataMessage}
    (hafter : firstRun after = []) :
    coalesce ((p :: ps).map .patch ++ after) =
      .patch (ps.foldl Patch.absorb p) :: coalesce after := by
  change coalesceAfter p (ps.map .patch ++ after) = _
  induction ps generalizing p with
  | nil =>
    cases after with
    | nil => rfl
    | cons msg rest =>
      cases msg with
      | patch q => cases hafter
      | pushResult result => rfl
  | cons q ps ih => exact ih (p.absorb q)

theorem settlements_coalesce (msgs : List DataMessage) :
    settlements (coalesce msgs) = settlements msgs :=
  settlements_of_merges (merges_coalesce msgs).1

theorem toClock_le_getLastD {p : Patch} {ps : List Patch}
    (hchained : Chained ((p :: ps).map .patch)) (hadvancing : Advancing ((p :: ps).map .patch)) :
    p.toClock ≤ (ps.getLastD p).toClock := by
  induction ps generalizing p with
  | nil => exact Nat.le_refl _
  | cons q ps ih =>
    have hchains : p.toClock = q.fromClock := (List.isChain_cons_cons.1 hchained).1
    have hq : q.fromClock < q.toClock := hadvancing q (by simp)
    have hlast := ih hchained.tail fun r hr => hadvancing r (List.mem_cons_of_mem _ hr)
    rw [List.getLastD_cons]
    omega

namespace Draft

variable {d d' : Draft}

theorem foldBatch_append (d : Draft) (msgs rest : List DataMessage) :
    (d.foldBatch (msgs ++ rest)).1 = ((d.foldBatch msgs).1.foldBatch rest).1 := by
  induction msgs generalizing d with
  | nil => rfl
  | cons msg msgs ih => exact ih (d.foldData msg).1

theorem pending_foldBatch_settlements (d : Draft) (msgs : List DataMessage) :
    (d.foldBatch msgs).1.pending =
      d.pending.filter fun p => !(settlements msgs).any fun result => result.pushId = p.pushId := by
  rw [pending_foldBatch]
  refine List.filter_congr fun p _ => congrArg _ ?_
  rw [settlements, List.any_filterMap]
  refine congrArg (msgs.any ·) (funext fun msg => ?_)
  cases msg <;> rfl

theorem settled_foldBatch (d : Draft) (msgs : List DataMessage) :
    (d.foldBatch msgs).2.filter SyncEvent.isSettled = (settlements msgs).map fun result =>
      .pushSettled result.pushId result.clock (result.rejected.map (·.recordId)) := by
  induction msgs generalizing d with
  | nil => rfl
  | cons msg rest ih =>
    change ((d.foldData msg).2.toList ++ ((d.foldData msg).1.foldBatch rest).2).filter _ = _
    rw [List.filter_append, ih]
    cases msg with
    | pushResult result => rfl
    | patch p =>
      by_cases hmade : p.fromClock ≤ d.replica.clock ∧ d.replica.clock < p.toClock
      · rw [foldData_patch hmade.1 hmade.2]
        rfl
      · rw [foldData_patch_dropped hmade]
        rfl

/-- Copies that are alike, with the same unsettled pushes, and on a condition with the same stamps as
well. -/
structure Agrees (exactly : Prop) (d d' : Draft) : Prop extends d.Alike d' where
  pending : d.pending = d'.pending
  eq : exactly → d = d'

namespace Agrees

variable {exactly : Prop} {d'' : Draft}

theorem refl (d : Draft) : Agrees exactly d d := ⟨.refl d, rfl, fun _ => rfl⟩

theorem symm (h : Agrees exactly d d') : Agrees exactly d' d :=
  ⟨h.toAlike.symm, h.pending.symm, fun he => (h.eq he).symm⟩

theorem trans (h : Agrees exactly d d') (h' : Agrees exactly d' d'') : Agrees exactly d d'' :=
  ⟨h.toAlike.trans h'.toAlike, h.pending.trans h'.pending, fun he => (h.eq he).trans (h'.eq he)⟩

theorem foldBatch (h : Agrees exactly d d') (msgs : List DataMessage) :
    Agrees exactly (d.foldBatch msgs).1 (d'.foldBatch msgs).1 :=
  ⟨h.toAlike.foldBatch msgs, by rw [pending_foldBatch, pending_foldBatch, h.pending],
    fun he => congrArg (fun d => (d.foldBatch msgs).1) (h.eq he)⟩

end Agrees

theorem agrees_rebase_twice (d : Draft) (p q : Patch) :
    let first := d.rebase ⟨p.toClock, p.changes.applyTo d.replica.records⟩
    Agrees (d.pending = []) (first.rebase ⟨q.toClock, q.changes.applyTo first.replica.records⟩)
      (d.rebase ⟨q.toClock, (p.absorb q).changes.applyTo d.replica.records⟩) := by
  intro first
  have hunion : ∀ records, (p.absorb q).changes.applyTo records =
      q.changes.applyTo (p.changes.applyTo records) := Changes.applyTo_union p.changes q.changes
  refine ⟨⟨by rw [clock_rebase, clock_rebase], Table.ext fun id => ?_, rfl, rfl⟩, rfl,
    fun hnone => ?_⟩
  · have hfirst : first.lastPending? id = d.lastPending? id := rfl
    rw [get?_values_rebase, get?_values_rebase, hfirst]
    cases hpending : d.lastPending? id with
    | some e => rfl
    | none =>
      -- Where nothing is pending, the first overlay shows what the first patch has left.
      have hshown : (first.replica.records.get? id).map Record.value =
          ((p.changes.applyTo d.replica.records).get? id).map Record.value := by
        have h := get?_values_rebase d ⟨p.toClock, p.changes.applyTo d.replica.records⟩ id
        rw [hpending, Replica.get?_values, Replica.get?_values] at h
        exact h
      rw [Option.elim_none, Option.elim_none, Replica.get?_values, Replica.get?_values, hunion,
        Changes.value_applyTo, ← hshown, ← Changes.value_applyTo]
  · simp only [first, rebase, hnone, overlay, List.foldl_nil, hunion]

/-- Two adjacent patches do what their merged patch does, unless the clock is between their ends:
then the second one alone could be made, and the merged one starts too early or is taken as a
whole. -/
theorem agrees_absorb {p q : Patch} (hchains : p.chains q) (hp : p.fromClock < p.toClock)
    (hq : q.fromClock < q.toClock)
    (hout : d.replica.clock ≤ p.fromClock ∨ q.toClock ≤ d.replica.clock) :
    Agrees (d.pending = []) (d.foldBatch [.patch p, .patch q]).1
      (d.foldData (.patch (p.absorb q))).1 := by
  have hchains : p.toClock = q.fromClock := hchains
  change Agrees _ ((d.foldData (.patch p)).1.foldData (.patch q)).1 _
  by_cases hmade : d.replica.clock = p.fromClock
  · have hfrom : (p.absorb q).fromClock ≤ d.replica.clock := Nat.le_of_eq hmade.symm
    have hto : d.replica.clock < (p.absorb q).toClock := by
      change d.replica.clock < q.toClock
      omega
    rw [foldData_patch (Nat.le_of_eq hmade.symm) (hmade.trans_lt hp), foldData_patch hfrom hto,
      foldData_patch]
    · exact d.agrees_rebase_twice p q
    · rw [clock_rebase]
      exact Nat.le_of_eq hchains.symm
    · rw [clock_rebase]
      exact hchains.trans_lt hq
  · have hfar : d.replica.clock < p.fromClock ∨ q.toClock ≤ d.replica.clock := by omega
    have habsorb : ¬((p.absorb q).fromClock ≤ d.replica.clock ∧
        d.replica.clock < (p.absorb q).toClock) := by
      change ¬(p.fromClock ≤ d.replica.clock ∧ d.replica.clock < q.toClock)
      omega
    have hfirst : ¬(p.fromClock ≤ d.replica.clock ∧ d.replica.clock < p.toClock) := by omega
    have hsecond : ¬(q.fromClock ≤ d.replica.clock ∧ d.replica.clock < q.toClock) := by omega
    rw [foldData_patch_dropped hfirst, foldData_patch_dropped hsecond,
      foldData_patch_dropped habsorb]
    exact .refl d

theorem agrees_run {p : Patch} {ps : List Patch} (hchained : Chained ((p :: ps).map .patch))
    (hadvancing : Advancing ((p :: ps).map .patch))
    (hout : d.replica.clock ≤ p.fromClock ∨ (ps.getLastD p).toClock ≤ d.replica.clock) :
    Agrees (d.pending = []) (d.foldBatch ((p :: ps).map .patch)).1
      (d.foldData (.patch (ps.foldl Patch.absorb p))).1 := by
  induction ps generalizing p with
  | nil => exact .refl _
  | cons q ps ih =>
    have hchains : p.chains q := (List.isChain_cons_cons.1 hchained).1
    have hp : p.fromClock < p.toClock := hadvancing p (by simp)
    have hq : q.fromClock < q.toClock := hadvancing q (by simp)
    have hrest : Advancing ((q :: ps).map .patch) :=
      fun r hr => hadvancing r (List.mem_cons_of_mem _ hr)
    have hlast := toClock_le_getLastD hchained.tail hrest
    rw [List.getLastD_cons] at hout
    have hpair : Agrees (d.pending = []) (d.foldBatch [.patch p, .patch q]).1
        (d.foldData (.patch (p.absorb q))).1 := agrees_absorb hchains hp hq (by omega)
    have hend : (ps.getLastD (p.absorb q)).toClock = (ps.getLastD q).toClock := by
      cases ps <;> rfl
    refine (hpair.foldBatch (ps.map .patch)).trans (ih ?_ ?_ ?_)
    · exact @Chained.absorb [] (ps.map .patch) p q hchained
    · intro r hr
      obtain hr | hr := List.mem_cons.1 hr
      · obtain rfl := DataMessage.patch.inj hr
        change p.fromClock < q.toClock
        have hchains : p.toClock = q.fromClock := hchains
        omega
      · exact hrest r (List.mem_cons_of_mem _ hr)
    · rw [hend]
      exact hout

/-- The clock of a copy is not inside the span of any run of adjacent patches that it comes to: when
the run is reached, the clock is at or before the first clock of the run or at or after its last
one. -/
def Outside (d : Draft) (msgs : List DataMessage) : Prop :=
  ∀ before rest, msgs = before ++ rest → before.getLast?.all (!·.isPatch) → ∀ span ∈ span? rest,
    let clock := (d.foldBatch before).1.replica.clock
    clock ≤ span.1 ∨ span.2 ≤ clock

instance (d : Draft) (msgs : List DataMessage) : Decidable (d.Outside msgs) :=
  decidable_of_iff (∀ place, place ≤ msgs.length → (msgs.take place).getLast?.all (!·.isPatch) →
    ∀ span ∈ span? (msgs.drop place),
      let clock := (d.foldBatch (msgs.take place)).1.replica.clock
      clock ≤ span.1 ∨ span.2 ≤ clock) <| by
    refine ⟨fun h before rest hmsgs => ?_, fun h place _ =>
      h _ _ (List.take_append_drop place msgs).symm⟩
    have hplace := h before.length (by simp [hmsgs])
    rwa [hmsgs, List.take_left, List.drop_left] at hplace

theorem Outside.behind {front rest : List DataMessage} (h : d.Outside (front ++ rest))
    (hbreak : front.getLast?.all (!·.isPatch) ∨ firstRun rest = []) :
    (d.foldBatch front).1.Outside rest := by
  intro before rest' hrest hbefore span hspan
  rw [← foldBatch_append]
  refine h (front ++ before) rest' (by rw [hrest, List.append_assoc]) ?_ span hspan
  cases before with
  | nil =>
    obtain hfront | hnone := hbreak
    · rwa [List.append_nil]
    · rw [hrest, List.nil_append] at hnone
      rw [span?, hnone] at hspan
      cases hspan
  | cons msg before => rwa [List.getLast?_append_of_ne_nil _ (by simp)]

/-- By induction on the length, run by run: what is in front of a result stays, and the patches up to
the next result are one run. -/
theorem alike_coalesce {msgs : List DataMessage} (hadvancing : Advancing msgs)
    (hchained : Chained msgs) (hout : d.Outside msgs) (h : d.Alike d') :
    (d.foldBatch msgs).1.Alike (d'.foldBatch (coalesce msgs)).1 := by
  induction hlength : msgs.length using Nat.strongRecOn generalizing msgs d d' with
  | _ length ih =>
    cases msgs with
    | nil => exact h
    | cons msg rest =>
      cases msg with
      | pushResult result =>
        have hrest : (d.settle result).1.Outside rest :=
          @Outside.behind d [.pushResult result] rest hout (.inl rfl)
        change ((d.settle result).1.foldBatch rest).1.Alike
          ((d'.settle result).1.foldBatch (coalesce rest)).1
        refine ih rest.length (by simp [← hlength]) (fun p hp => ?_) hchained.tail hrest
          (h.settle result) rfl
        exact hadvancing p (List.mem_cons_of_mem _ hp)
      | patch p =>
        obtain ⟨after, hrest, hafter⟩ := exists_after_firstRun rest
        have hrun := hout [] (.patch p :: rest) rfl rfl _ rfl
        have hmsgs : .patch p :: rest = (p :: firstRun rest).map .patch ++ after :=
          congrArg (.patch p :: ·) hrest
        rw [hmsgs] at hadvancing hchained hout hlength ⊢
        have hmerged := (agrees_run hchained.left_of_append
          (fun q hq => hadvancing q (List.mem_append_left after hq)) hrun).toAlike.trans (h.foldData _)
        rw [coalesce_run p _ hafter, foldBatch_append]
        change ((d.foldBatch ((p :: firstRun rest).map .patch)).1.foldBatch after).1.Alike
          ((d'.foldData (.patch ((firstRun rest).foldl Patch.absorb p))).1.foldBatch
            (coalesce after)).1
        refine ih after.length ?_ (fun q hq => ?_) hchained.right_of_append
          (hout.behind (.inr hafter)) hmerged rfl
        · rw [← hlength, List.length_append, List.length_map, List.length_cons]
          omega
        · exact hadvancing q (List.mem_append_right _ hq)

/-- A client cannot tell whether the patches of a batch were merged. -/
theorem fold_coalesce {msgs : List DataMessage} (hadvancing : Advancing msgs)
    (hchained : Chained msgs) (hout : d.Outside msgs) :
    let plain := d.fold (.data msgs)
    let merged := d.fold (.data (coalesce msgs))
    merged.draft.replica.values = plain.draft.replica.values ∧
      merged.draft.replica.clock = plain.draft.replica.clock ∧
      merged.draft.pending = plain.draft.pending ∧
      merged.events.filter SyncEvent.isSettled = plain.events.filter SyncEvent.isSettled := by
  have halike := alike_coalesce hadvancing hchained hout (.refl d)
  have hsettlements := settlements_coalesce msgs
  refine ⟨halike.values, halike.clock, ?_, ?_⟩
  · change (d.foldBatch (coalesce msgs)).1.pending = (d.foldBatch msgs).1.pending
    rw [pending_foldBatch_settlements, pending_foldBatch_settlements, hsettlements]
  · change (d.foldBatch (coalesce msgs)).2.filter _ = (d.foldBatch msgs).2.filter _
    rw [settled_foldBatch, settled_foldBatch, hsettlements]

/-- Two pushes are unsettled on notes that the room changes as well. The first one is partly rejected
between two runs of patches, and the second one deletes a note that a merged patch puts. -/
theorem fold_coalesce_around_rejection :
    let note : RecordId → Int → Nat → Record :=
      fun id n stamp => ⟨id, "note", .object [("n", .int n)], stamp⟩
    let put : Record → Changes := fun record => Changes.put Table.empty record
    let d : Draft := ⟨"k", ⟨3, Record.table [note "a" 0 1, note "b" 0 3]⟩, [], 1, true⟩
    let d := (d.push [⟨"a", .upsert "note" (.object [])⟩, ⟨"c", .upsert "note" (.object [])⟩]).1
    let d := (d.push [⟨"b", .delete⟩]).1
    let msgs : List DataMessage :=
      [.patch ⟨3, 4, put (note "a" 1 4)⟩, .patch ⟨4, 5, put (note "b" 1 5)⟩,
        .pushResult ⟨1, 6, [⟨"a", .missingField "n", some (note "a" 1 4)⟩]⟩,
        .patch ⟨6, 7, put (note "b" 2 7)⟩, .patch ⟨7, 8, Changes.remove Table.empty "c"⟩]
    let plain := d.fold (.data msgs)
    let merged := d.fold (.data (coalesce msgs))
    (coalesce msgs).length = 3 ∧ plain.events.length = 5 ∧ merged.events.length = 3 ∧
      plain.draft.replica.clock = 8 ∧
      plain.draft.replica.values.entries = [("a", "note", .object [("n", .int 1)])] ∧
      merged.draft.replica.values = plain.draft.replica.values ∧
      merged.draft.pending = [⟨2, [⟨"b", .delete⟩]⟩] ∧
      merged.events.filter SyncEvent.isSettled = [.pushSettled 1 6 ["a"]] := by
  intro note put d₀ d₁ d msgs plain merged
  have hadvancing : Advancing msgs := by
    intro p hp
    simp only [msgs, List.mem_cons, List.not_mem_nil, or_false, DataMessage.patch.injEq,
      reduceCtorEq, false_or] at hp
    obtain rfl | rfl | rfl | rfl := hp <;> decide
  have hchained : Chained msgs := by
    refine List.isChain_cons_cons.2 ⟨rfl, ?_⟩
    refine List.isChain_cons_cons.2 ⟨trivial, List.isChain_cons_cons.2 ⟨trivial, ?_⟩⟩
    exact List.isChain_cons_cons.2 ⟨rfl, List.isChain_singleton _⟩
  obtain ⟨hvalues, -, hpending, hsettled⟩ :=
    fold_coalesce hadvancing hchained (d := d) (by decide +kernel)
  refine ⟨by decide +kernel, by decide +kernel, by decide +kernel, by decide +kernel,
    by decide +kernel, hvalues, hpending.trans (by decide +kernel), hsettled.trans (by decide +kernel)⟩

end Draft

end RoomSync
