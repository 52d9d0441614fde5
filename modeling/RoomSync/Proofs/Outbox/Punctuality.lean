import Mathlib.Data.List.Induction
import RoomSync.Proofs.Outbox.Conservation

namespace RoomSync.Outbox

def Call.instant : Call → Nat
  | .enqueue _ now | .flushDue now _ => now

def Timely (calls : List Call) : Prop := calls.Pairwise fun call later => call.instant ≤ later.instant

instance (calls : List Call) : Decidable (Timely calls) :=
  inferInstanceAs (Decidable (calls.Pairwise fun call later => call.instant ≤ later.instant))

structure Dated where
  outbox : Outbox
  held : List (DataMessage × Nat)

namespace Dated

def start (outbox : Outbox) : Dated := ⟨outbox, []⟩

def step (config : Config) (d : Dated) : Call → Dated
  | .enqueue msg now =>
    match d.outbox.enqueue msg now config with
    | (outbox, .held) => ⟨outbox, d.held ++ [(msg, now)]⟩
    | (outbox, .send _) | (outbox, .overflow) => { d with outbox }
  | .flushDue now debounce =>
    match d.outbox.flushDue now debounce with
    | (outbox, some _) => ⟨outbox, []⟩
    | (outbox, none) => { d with outbox }

def run (config : Config) (d : Dated) (calls : List Call) : Dated := calls.foldl (step config) d

theorem run_append (config : Config) (d : Dated) (calls more : List Call) :
    d.run config (calls ++ more) = (d.run config calls).run config more := List.foldl_append ..

def HandsOutAll (config : Config) (d : Dated) (now debounce : Nat) : Prop :=
  (d.outbox.flushDue now debounce).2 = some (coalesce d.outbox.held) ∧
    (d.step config (.flushDue now debounce)).outbox.held = []

end Dated

structure Punctual (config : Config) (calls : List Call) (d : Dated) : Prop where
  dated : d.held.map Prod.fst = d.outbox.held
  came : ∀ e ∈ d.held, .enqueue e.1 e.2 ∈ calls
  oldest_first : d.held.Pairwise fun e later => e.2 ≤ later.2
  opened : d.outbox.deadline ≠ none → ∃ call ∈ calls, call.instant = d.outbox.openedAt
  window : ∀ e ∈ d.held, ∃ deadline, d.outbox.deadline = some deadline ∧
    d.outbox.openedAt ≤ e.2 ∧ deadline ≤ d.outbox.openedAt + config.maxBatchDelay

variable {config : Config} {calls : List Call} {d : Dated}

theorem punctual_start (clock now : Nat) : Punctual config [] (.start (.start clock now)) :=
  ⟨rfl, nofun, .nil, nofun, nofun⟩

namespace Punctual

theorem held_of_closed (h : Punctual config calls d) (hclosed : d.outbox.deadline = none) :
    d.held = [] := by
  refine List.eq_nil_iff_forall_not_mem.2 fun e he => ?_
  obtain ⟨deadline, hopen, -⟩ := h.window e he
  cases hclosed.symm.trans hopen

theorem concat (h : Punctual config calls d) (call : Call) : Punctual config (calls ++ [call]) d where
  dated := h.dated
  came e he := List.mem_append_left _ (h.came e he)
  oldest_first := h.oldest_first
  opened hd := (h.opened hd).imp fun _ ⟨hcall, hinstant⟩ => ⟨List.mem_append_left _ hcall, hinstant⟩
  window := h.window

theorem enqueue (h : Punctual config calls d) (msg : DataMessage) {now : Nat}
    (hlater : ∀ call ∈ calls, call.instant ≤ now) :
    Punctual config (calls ++ [.enqueue msg now]) (d.step config (.enqueue msg now)) := by
  have hlast : Call.enqueue msg now ∈ calls ++ [.enqueue msg now] :=
    List.mem_append_right _ (List.mem_singleton_self _)
  have hsame := h.concat (.enqueue msg now)
  cases hd : d.outbox.deadline with
  | none =>
    -- The message is sent, and nothing is held in the window that it opens.
    have hnothing := h.held_of_closed hd
    have hheld : d.outbox.held = [] := by rw [← h.dated, hnothing, List.map_nil]
    simp only [Dated.step, Outbox.enqueue, hd, hnothing, hheld]
    exact ⟨rfl, List.forall_mem_nil _, .nil, fun _ => ⟨_, hlast, rfl⟩, List.forall_mem_nil _⟩
  | some deadline =>
    have hopen : d.outbox.deadline ≠ none := by
      rw [hd]
      exact Option.some_ne_none deadline
    by_cases hfull : config.maxOutstanding ≤ d.outbox.held.length
    · simp only [Dated.step, Outbox.enqueue, hd, if_pos hfull]
      exact ⟨h.dated, hsame.came, h.oldest_first, fun _ => hsame.opened hopen, hd ▸ h.window⟩
    · simp only [Dated.step, Outbox.enqueue, hd, if_neg hfull]
      obtain ⟨opening, hopening, hinstant⟩ := h.opened hopen
      have hopened : d.outbox.openedAt ≤ now := hinstant ▸ hlater opening hopening
      refine ⟨?_, ?_, ?_, fun _ => hsame.opened hopen, ?_⟩
      · rw [List.map_append, h.dated]
        rfl
      · rw [List.forall_mem_append, List.forall_mem_singleton]
        exact ⟨hsame.came, hlast⟩
      · refine List.pairwise_append.2 ⟨h.oldest_first, List.pairwise_singleton .., fun e he => ?_⟩
        rw [List.forall_mem_singleton]
        exact hlater _ (h.came e he)
      · rw [List.forall_mem_append, List.forall_mem_singleton]
        have hcapped := Nat.min_le_right (now + config.debounce)
          (d.outbox.openedAt + config.maxBatchDelay)
        exact ⟨fun e he => ⟨_, rfl, (h.window e he).elim fun _ hw => hw.2.1, hcapped⟩,
          _, rfl, hopened, hcapped⟩

theorem flushDue (h : Punctual config calls d) (now debounce : Nat) :
    Punctual config (calls ++ [.flushDue now debounce]) (d.step config (.flushDue now debounce)) := by
  have hlast : Call.flushDue now debounce ∈ calls ++ [.flushDue now debounce] :=
    List.mem_append_right _ (List.mem_singleton_self _)
  have hsame := h.concat (.flushDue now debounce)
  cases hd : d.outbox.deadline with
  | none =>
    simp only [Dated.step, Outbox.flushDue, hd]
    exact hsame
  | some deadline =>
    by_cases hearly : now < deadline
    · simp only [Dated.step, Outbox.flushDue, hd, if_pos hearly]
      exact hsame
    · by_cases hempty : d.outbox.held.isEmpty = true
      · have hheld : d.outbox.held = [] := List.isEmpty_iff.1 hempty
        have hnothing : d.held = [] := by rw [← List.map_eq_nil_iff, h.dated, hheld]
        simp only [Dated.step, Outbox.flushDue, hd, if_neg hearly, if_pos hempty, hnothing]
        exact ⟨hheld.symm, nofun, .nil, fun hno => absurd rfl hno, nofun⟩
      · simp only [Dated.step, Outbox.flushDue, hd, if_neg hearly, if_neg hempty]
        exact ⟨rfl, nofun, .nil, fun _ => ⟨_, hlast, rfl⟩, nofun⟩

theorem run (h : Punctual config [] d) (htimely : Timely calls) :
    Punctual config calls (d.run config calls) := by
  induction calls using List.reverseRecOn with
  | nil => exact h
  | append_singleton calls call ih =>
    obtain ⟨hcalls, -, hlater⟩ := List.pairwise_append.1 htimely
    have hlater : ∀ earlier ∈ calls, earlier.instant ≤ call.instant :=
      fun earlier he => hlater earlier he call (List.mem_singleton_self call)
    rw [Dated.run_append]
    cases call with
    | enqueue msg now => exact (ih hcalls).enqueue msg hlater
    | flushDue now debounce => exact (ih hcalls).flushDue now debounce

theorem handsOutAll (h : Punctual config calls d) {e : DataMessage × Nat} (he : e ∈ d.held) {now : Nat}
    (hdue : e.2 + config.maxBatchDelay ≤ now) (debounce : Nat) :
    d.HandsOutAll config now debounce := by
  obtain ⟨deadline, hd, hopened, hcapped⟩ := h.window e he
  have hdue : ¬now < deadline := by omega
  have hheld : ¬d.outbox.held.isEmpty = true := by
    rw [List.isEmpty_iff, ← h.dated, List.map_eq_nil_iff]
    exact List.ne_nil_of_mem he
  simp only [Dated.HandsOutAll, Dated.step, Outbox.flushDue, hd, if_neg hdue, if_neg hheld, and_self]

end Punctual

theorem Dated.step_cases (config : Config) (d : Dated) (call : Call) :
    (∃ now debounce, call = .flushDue now debounce ∧ d.HandsOutAll config now debounce) ∨
      d.held <+: (d.step config call).held := by
  cases call with
  | enqueue msg now =>
    right
    rw [step]
    split
    · exact List.prefix_append ..
    · exact List.prefix_refl _
    · exact List.prefix_refl _
  | flushDue now debounce =>
    have hcases := d.outbox.flushDue_cases now debounce
    cases hflush : d.outbox.flushDue now debounce with
    | mk outbox due =>
      simp only [hflush] at hcases
      obtain ⟨rfl, -⟩ | ⟨rfl, hheld⟩ := hcases
      · right
        simp only [step, hflush]
        exact List.prefix_refl _
      · left
        refine ⟨now, debounce, rfl, ?_⟩
        simp only [HandsOutAll, step, hflush, hheld, and_self]

/-- What is held at some time is handed out, with all that has come since, by a flush that comes when
the longest delay after it is over, if not by an earlier one. -/
theorem Dated.handed_out {start : Dated} (hstart : Punctual config [] start) {before between : List Call}
    {now debounce : Nat} (htimely : Timely (before ++ between ++ [.flushDue now debounce]))
    {e : DataMessage × Nat} (he : e ∈ (start.run config before).held)
    (hdue : e.2 + config.maxBatchDelay ≤ now) :
    ∃ earlier now' debounce' later,
      between ++ [.flushDue now debounce] = earlier ++ .flushDue now' debounce' :: later ∧
      (start.run config before).held <+: (start.run config (before ++ earlier)).held ∧
      (start.run config (before ++ earlier)).HandsOutAll config now' debounce' := by
  have hnil : ∀ calls, start.run config (calls ++ []) = start.run config calls :=
    fun calls => congrArg _ (List.append_nil calls)
  induction between generalizing before with
  | nil =>
    rw [List.append_nil] at htimely
    have hall := (hstart.run (List.pairwise_append.1 htimely).1).handsOutAll he hdue debounce
    rw [← hnil] at hall
    exact ⟨[], now, debounce, [], rfl, by simp only [hnil, List.prefix_refl], hall⟩
  | cons call rest ih =>
    have hnext : start.run config (before ++ [call]) = (start.run config before).step config call :=
      start.run_append config before [call]
    obtain ⟨now', debounce', rfl, hall⟩ | hgrows := (start.run config before).step_cases config call
    · rw [← hnil] at hall
      exact ⟨[], now', debounce', rest ++ [.flushDue now debounce], rfl,
        by simp only [hnil, List.prefix_refl], hall⟩
    · rw [← hnext] at hgrows
      have hassoc : before ++ call :: rest = before ++ [call] ++ rest := by simp
      rw [hassoc] at htimely
      obtain ⟨earlier, now', debounce', later, heq, hkept, hall⟩ :=
        ih htimely (hgrows.subset he)
      rw [List.append_assoc, List.singleton_append] at hkept hall
      exact ⟨call :: earlier, now', debounce', later, congrArg (call :: ·) heq, hgrows.trans hkept, hall⟩

/-- No traffic holds a message back for longer than the longest delay and the time to the next flush,
whatever the settings are. -/
theorem punctual_run (waiting : Waiting) (schema : SchemaSummary) (clock since : Nat) (config : Config)
    (calls : List Call) (htimely : Timely calls) :
    let after := (Dated.start (waiting.accept schema clock since).outbox).run config
    Punctual config calls (after calls) ∧
      (∀ e ∈ (after calls).held, ∀ now debounce, e.2 + config.maxBatchDelay ≤ now →
        (after calls).HandsOutAll config now debounce) ∧
      ∀ before between now debounce, calls = before ++ between ++ [.flushDue now debounce] →
        ∀ e ∈ (after before).held, e.2 + config.maxBatchDelay ≤ now →
          ∃ earlier now' debounce' later,
            between ++ [.flushDue now debounce] = earlier ++ .flushDue now' debounce' :: later ∧
            (after before).held <+: (after (before ++ earlier)).held ∧
            (after (before ++ earlier)).HandsOutAll config now' debounce' := by
  intro after
  have hstart : Punctual config [] (.start (waiting.accept schema clock since).outbox) :=
    punctual_start clock since
  have hpunctual := hstart.run htimely
  refine ⟨hpunctual, fun e he now debounce hdue => hpunctual.handsOutAll he hdue debounce, ?_⟩
  rintro before between now debounce rfl e he hdue
  exact Dated.handed_out hstart htimely he hdue

/-- The window may be prolonged by far more than it may last. The first of three messages that are held
came at 5, so that the flush at 40 comes late enough for all of them. -/
theorem punctual_run_busy :
    let config : Config := { debounce := 100, maxBatchDelay := 30 }
    let patch : Nat → DataMessage := fun clock => .patch ⟨clock, clock + 1, Table.empty⟩
    let before : List Call := [.enqueue (patch 0) 0, .enqueue (patch 1) 5]
    let between : List Call := [.enqueue (patch 2) 29, .flushDue 29 100, .enqueue (patch 3) 34]
    let after := (Dated.start ((⟨0, 0, none⟩ : Waiting).accept ⟨1, []⟩ 0 0).outbox).run config
    let d := after (before ++ between)
    Timely (before ++ between ++ [.flushDue 40 100]) ∧ (after before).held = [(patch 1, 5)] ∧
      d.held = [(patch 1, 5), (patch 2, 29), (patch 3, 34)] ∧ d.outbox.deadline = some 30 ∧
      Punctual config (before ++ between) d ∧ d.HandsOutAll config 40 100 ∧
      (d.outbox.flushDue 40 100).2 = some [.patch ⟨1, 4, Table.empty⟩] ∧
      ∃ earlier now debounce later,
        between ++ [.flushDue 40 100] = earlier ++ .flushDue now debounce :: later ∧
        (after before).held <+: (after (before ++ earlier)).held ∧
        (after (before ++ earlier)).HandsOutAll config now debounce := by
  intro config patch before between after d
  have htimely : Timely (before ++ between ++ [.flushDue 40 100]) := by decide
  have hfirst : (after before).held = [(patch 1, 5)] := by decide
  have hheld : d.held = [(patch 1, 5), (patch 2, 29), (patch 3, 34)] := by decide
  obtain ⟨hpunctual, hflush, -⟩ :=
    punctual_run ⟨0, 0, none⟩ ⟨1, []⟩ 0 0 config (before ++ between) (by decide)
  obtain ⟨-, -, hleads⟩ := punctual_run ⟨0, 0, none⟩ ⟨1, []⟩ 0 0 config _ htimely
  have hall : d.HandsOutAll config 40 100 :=
    hflush (patch 1, 5) (hheld ▸ List.mem_cons_self) 40 100 (by decide)
  have hout := hleads before between 40 100 rfl (patch 1, 5) (hfirst ▸ List.mem_cons_self) (by decide)
  exact ⟨htimely, hfirst, hheld, by decide, hpunctual, hall, hall.1.trans (by decide), hout⟩

end RoomSync.Outbox
