import Mathlib.Data.List.Chain
import RoomSync.Proofs.Changes
import RoomSync.Proofs.Outbox.Clocks
import RoomSync.Session

namespace RoomSync

theorem Patch.absorb_assoc (p q r : Patch) : (p.absorb q).absorb r = p.absorb (q.absorb r) := by
  simp only [Patch.absorb, Table.union_assoc]

/-- It does not matter whether two adjacent patches are merged beforehand. -/
theorem coalesce_absorb (before after : List DataMessage) (p q : Patch) :
    coalesce (before ++ .patch p :: .patch q :: after) =
        coalesce (before ++ .patch (p.absorb q) :: after) ∧
      ∀ r, coalesceAfter r (before ++ .patch p :: .patch q :: after) =
        coalesceAfter r (before ++ .patch (p.absorb q) :: after) := by
  induction before with
  | nil =>
    refine ⟨rfl, fun r => ?_⟩
    simp only [List.nil_append, coalesceAfter, Patch.absorb_assoc]
  | cons msg rest ih =>
    obtain ⟨hc, ha⟩ := ih
    cases msg with
    | patch p' => exact ⟨ha p', fun r => ha (r.absorb p')⟩
    | pushResult result =>
      simp only [List.cons_append, coalesce, coalesceAfter, hc, implies_true, and_self]

theorem Merges.coalesce_eq {xs ys : List DataMessage} (h : Merges xs ys) :
    coalesce xs = coalesce ys := by
  induction h with
  | refl msgs => rfl
  | @merge before after merged p q _ ih => exact (coalesce_absorb before after p q).1.trans ih

def DataMessage.Precedes : DataMessage → DataMessage → Prop
  | .patch p, .patch q => p.chains q
  | _, _ => True

def Chained (msgs : List DataMessage) : Prop := msgs.IsChain DataMessage.Precedes

theorem Chained.absorb {before after : List DataMessage} {p q : Patch}
    (h : Chained (before ++ .patch p :: .patch q :: after)) :
    Chained (before ++ .patch (p.absorb q) :: after) := by
  induction before with
  | nil =>
    cases after with
    | nil => exact List.isChain_singleton _
    | cons next rest =>
      obtain ⟨hnext, hrest⟩ := List.isChain_cons_cons.1 (List.isChain_cons_cons.1 h).2
      refine List.isChain_cons_cons.2 ⟨?_, hrest⟩
      cases next with
      | patch r => exact hnext
      | pushResult result => trivial
  | cons msg rest ih =>
    have htail := ih h.tail
    cases rest with
    | nil =>
      refine List.isChain_cons_cons.2 ⟨?_, htail⟩
      have hp := (List.isChain_cons_cons.1 h).1
      cases msg with
      | patch r => exact hp
      | pushResult result => trivial
    | cons next rest => exact List.isChain_cons_cons.2 ⟨(List.isChain_cons_cons.1 h).1, htail⟩

theorem Chained.merges {xs ys : List DataMessage} (h : Chained xs) (hm : Merges xs ys) :
    Chained ys := by
  induction hm with
  | refl msgs => exact h
  | merge _ ih => exact ih h.absorb

theorem Chained.coalesce {msgs : List DataMessage} (h : Chained msgs) :
    coalesce? msgs = some (RoomSync.coalesce msgs) ∧
      ∀ p, Chained (.patch p :: msgs) → coalesceAfter? p msgs = some (coalesceAfter p msgs) := by
  induction msgs with
  | nil => exact ⟨rfl, fun p _ => rfl⟩
  | cons msg rest ih =>
    obtain ⟨hc, ha⟩ := ih h.tail
    cases msg with
    | patch q =>
      refine ⟨ha q h, fun p hp => ?_⟩
      have hchains : p.toClock = q.fromClock := (List.isChain_cons_cons.1 hp).1
      have hmerged : Chained (.patch (p.absorb q) :: rest) := @Chained.absorb [] rest p q hp
      simp only [coalesceAfter?, coalesceAfter, Patch.absorb?, if_pos hchains, Option.bind_some]
      exact ha _ hmerged
    | pushResult result =>
      simp [coalesce?, coalesceAfter?, RoomSync.coalesce, coalesceAfter, hc]

namespace Outbox

inductive Call where
  | enqueue (msg : DataMessage) (now : Nat)
  | flushDue (now debounce : Nat)

/-- An outbox with all that has gone through it. -/
structure Traffic where
  outbox : Outbox
  taken : List DataMessage
  batches : List (List DataMessage)

namespace Traffic

def start (outbox : Outbox) : Traffic := ⟨outbox, [], []⟩

def step (config : Config) (t : Traffic) : Call → Traffic
  | .enqueue msg now =>
    match t.outbox.enqueue msg now config with
    | (outbox, .send batch) => ⟨outbox, t.taken ++ [msg], t.batches ++ [batch]⟩
    | (outbox, .held) => ⟨outbox, t.taken ++ [msg], t.batches⟩
    | (outbox, .overflow) => { t with outbox }
  | .flushDue now debounce =>
    match t.outbox.flushDue now debounce with
    | (outbox, some batch) => { t with outbox, batches := t.batches ++ [batch] }
    | (outbox, none) => { t with outbox }

def run (config : Config) (t : Traffic) (calls : List Call) : Traffic :=
  calls.foldl (step config) t

def handed (t : Traffic) : List DataMessage := t.batches.flatten ++ t.outbox.held

structure Kept (t : Traffic) (config : Config) : Prop where
  merges : Merges t.taken t.handed
  windowed : t.outbox.Windowed
  bounded : t.outbox.held.length ≤ config.maxOutstanding

variable {t : Traffic} {config : Config}

theorem kept_start (clock now : Nat) (config : Config) :
    (start (.start clock now)).Kept config :=
  ⟨.refl _, windowed_start clock now, Nat.zero_le _⟩

theorem Kept.enqueue (h : t.Kept config) (msg : DataMessage) (now : Nat) :
    (t.step config (.enqueue msg now)).Kept config := by
  have hmerges := h.merges.append_right [msg]
  cases hd : t.outbox.deadline with
  | none =>
    have hheld := h.windowed hd
    simp only [handed, hheld, List.append_nil] at hmerges
    simp only [step, Outbox.enqueue, hd]
    refine ⟨?_, nofun, ?_⟩
    · simpa [handed, hheld] using hmerges
    · simp [hheld]
  | some deadline =>
    by_cases hfull : config.maxOutstanding ≤ t.outbox.held.length
    · simp only [step, Outbox.enqueue, hd, if_pos hfull]
      exact ⟨h.merges, nofun, h.bounded⟩
    · simp only [step, Outbox.enqueue, hd, if_neg hfull]
      refine ⟨?_, nofun, ?_⟩
      · simpa [handed] using hmerges
      · rw [List.length_append, List.length_singleton]
        omega

theorem Kept.flushDue (h : t.Kept config) (now debounce : Nat) :
    (t.step config (.flushDue now debounce)).Kept config := by
  have hwindowed := h.windowed.flushDue now debounce
  have hmerges := h.merges.trans ((merges_coalesce t.outbox.held).1.append_left t.batches.flatten)
  have hcases := t.outbox.flushDue_cases now debounce
  rw [step]
  generalize t.outbox.flushDue now debounce = flushed at hwindowed hcases ⊢
  obtain ⟨outbox, due⟩ := flushed
  obtain ⟨rfl, hheld⟩ | ⟨rfl, hheld⟩ : (due = none ∧ outbox.held = t.outbox.held) ∨
      (due = some (coalesce t.outbox.held) ∧ outbox.held = []) := hcases
  · refine ⟨?_, hwindowed, ?_⟩
    · simpa only [handed, hheld] using h.merges
    · simpa only [hheld] using h.bounded
  · refine ⟨?_, hwindowed, ?_⟩
    · simpa [handed, hheld] using hmerges
    · simp [hheld]

theorem Kept.run (h : t.Kept config) (calls : List Call) : (t.run config calls).Kept config := by
  induction calls generalizing t with
  | nil => exact h
  | cons call rest ih =>
    cases call with
    | enqueue msg now => exact ih (h.enqueue msg now)
    | flushDue now debounce => exact ih (h.flushDue now debounce)

end Traffic

/-- What can be said of an outbox at any time, given all that has gone through it. -/
structure Conserves (t : Traffic) (config : Config) : Prop where
  same : coalesce t.handed = coalesce t.taken
  /-- If the patches that were taken in follow one another, then so do all that are merged. -/
  gapless : Chained t.taken →
    coalesce? t.outbox.held = some (coalesce t.outbox.held) ∧
      coalesce? t.handed = some (coalesce t.taken)
  windowed : t.outbox.deadline = none → t.outbox.held = []
  /-- A message that is sent at once overtakes none. -/
  in_order : ∀ msg now batch, (t.outbox.enqueue msg now config).2 = .send batch →
    batch = [msg] ∧ t.outbox.held = []
  bounded : t.outbox.held.length ≤ config.maxOutstanding

theorem Traffic.Kept.conserves {t : Traffic} {config : Config} (h : t.Kept config) :
    Conserves t config := by
  have hsame := h.merges.coalesce_eq.symm
  refine ⟨hsame, fun hc => ⟨?_, ?_⟩, h.windowed, fun msg now batch hsend => ?_, h.bounded⟩
  · have hheld : Chained t.outbox.held := List.IsChain.right_of_append (hc.merges h.merges)
    exact hheld.coalesce.1
  · exact hsame ▸ (hc.merges h.merges).coalesce.1
  · obtain hpost | ⟨hpost, -⟩ | ⟨hpost, hheld, -⟩ := enqueue_cases msg now config h.windowed <;>
      rw [hpost] at hsend
    · cases hsend
    · cases hsend
    · exact ⟨(Posting.send.inj hsend).symm, hheld⟩

/-- Whatever is done with the outbox of a session from the handshake on, and at whatever instants. -/
theorem conserves_run (waiting : Waiting) (schema : SchemaSummary) (clock now : Nat)
    (config : Config) (calls : List Call) :
    Conserves ((Traffic.start (waiting.accept schema clock now).outbox).run config calls) config :=
  ((Traffic.kept_start clock now config).run calls).conserves

/-- Two patches that are held back go out as one, and the second flush closes the window. -/
example :
    let patch : Nat → DataMessage := fun clock => .patch ⟨clock, clock + 1, Table.empty⟩
    let t := (Traffic.start (.start 0 0)).run {}
      [.enqueue (patch 0) 0, .enqueue (patch 1) 5, .enqueue (patch 2) 9, .flushDue 20 16,
        .flushDue 30 16, .flushDue 60 16, .flushDue 90 16]
    t.batches = [[patch 0], [.patch ⟨1, 3, Table.empty⟩]] ∧ t.outbox.deadline = none := by
  decide

end Outbox

end RoomSync
