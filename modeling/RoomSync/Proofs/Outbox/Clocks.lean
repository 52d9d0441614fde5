import RoomSync.Proofs.Outbox

namespace RoomSync

/-- Extend a patch by one that has to follow it. -/
def Patch.absorb? (p later : Patch) : Option Patch :=
  if p.toClock = later.fromClock then some (p.absorb later) else none

mutual

/-- Merge runs of adjacent patches, provided that they follow one another. -/
def coalesce? : List DataMessage → Option (List DataMessage)
  | [] => some []
  | .patch p :: rest => coalesceAfter? p rest
  | .pushResult r :: rest => (coalesce? rest).map fun merged => .pushResult r :: merged

def coalesceAfter? (p : Patch) : List DataMessage → Option (List DataMessage)
  | [] => some [.patch p]
  | .patch next :: rest => (p.absorb? next).bind fun merged => coalesceAfter? merged rest
  | .pushResult r :: rest =>
    (coalesce? rest).map fun merged => .patch p :: .pushResult r :: merged

end

def DataMessage.StartsAt (clock : Nat) : DataMessage → Prop
  | .patch p => p.fromClock = clock
  | .pushResult _ => True

/-- The messages take a receiver from one clock to another one, and each patch starts where it finds
the receiver. -/
def Consecutive (clock : Nat) : List DataMessage → Nat → Prop
  | [], last => clock = last
  | msg :: rest, last => msg.StartsAt clock ∧ Consecutive msg.clock rest last

variable {clock last : Nat} {msgs : List DataMessage}

theorem Consecutive.concat (h : Consecutive clock msgs last) {msg : DataMessage}
    (hm : msg.StartsAt last) : Consecutive clock (msgs ++ [msg]) msg.clock := by
  induction msgs generalizing clock with
  | nil =>
    obtain rfl : clock = last := h
    exact ⟨hm, rfl⟩
  | cons m rest ih => exact ⟨h.1, ih h.2⟩

theorem Consecutive.chains {before after : List DataMessage} {p q : Patch}
    (h : Consecutive clock (before ++ .patch p :: .patch q :: after) last) : p.chains q := by
  induction before generalizing clock with
  | nil => exact h.2.1.symm
  | cons m rest ih => exact ih h.2

theorem Consecutive.coalesce (h : Consecutive clock msgs last) :
    coalesce? msgs = some (RoomSync.coalesce msgs) ∧
      ∀ p, p.toClock = clock → coalesceAfter? p msgs = some (coalesceAfter p msgs) := by
  induction msgs generalizing clock with
  | nil => exact ⟨rfl, fun p _ => rfl⟩
  | cons msg rest ih =>
    obtain ⟨hstart, hrest⟩ := h
    obtain ⟨hc, ha⟩ := ih hrest
    cases msg with
    | patch q =>
      refine ⟨ha q rfl, fun p hp => ?_⟩
      have habsorb : p.absorb? q = some (p.absorb q) := if_pos (hp.trans hstart.symm)
      rw [coalesceAfter?, habsorb]
      exact ha (p.absorb q) rfl
    | pushResult r =>
      refine ⟨?_, fun p _ => ?_⟩
      · rw [coalesce?, hc]
        rfl
      · rw [coalesceAfter?, hc]
        rfl

namespace Outbox

/-- Everything up to a clock has been put into the outbox, and what is held follows one another. -/
structure UpTo (o : Outbox) (clock : Nat) : Prop where
  lastSent : o.lastSent = clock
  windowed : o.Windowed
  held : ∃ first, Consecutive first o.held clock

theorem upTo_start (clock now : Nat) : (start clock now).UpTo clock :=
  ⟨rfl, windowed_start clock now, clock, rfl⟩

variable {o : Outbox} {clock : Nat}

/-- One outbox comes from another one by taking in a message. -/
structure Admits (o : Outbox) (msg : DataMessage) (now : Nat) (config : Config) (o' : Outbox) :
    Prop where
  eq : o' = (o.enqueue msg now config).1
  taken : (o.enqueue msg now config).2 ≠ .overflow

theorem UpTo.admits (h : o.UpTo clock) {msg : DataMessage} {now : Nat} {config : Config}
    {o' : Outbox} (hm : msg.StartsAt clock) (ha : o.Admits msg now config o') :
    o'.UpTo msg.clock := by
  obtain ⟨rfl, htaken⟩ := ha
  refine ⟨lastSent_enqueue msg now config, windowed_enqueue msg now config, ?_⟩
  obtain he | ⟨-, hheld⟩ | ⟨-, -, hheld⟩ := enqueue_cases msg now config h.windowed
  · exact absurd he htaken
  · obtain ⟨first, hfirst⟩ := h.held
    rw [hheld]
    exact ⟨first, hfirst.concat hm⟩
  · rw [hheld]
    exact ⟨msg.clock, rfl⟩

theorem UpTo.flushDue (h : o.UpTo clock) (now debounce : Nat) :
    (o.flushDue now debounce).1.UpTo clock := by
  refine ⟨(lastSent_flushDue now debounce).trans h.lastSent, h.windowed.flushDue now debounce, ?_⟩
  obtain ⟨-, hheld⟩ | ⟨-, hheld⟩ := o.flushDue_cases now debounce
  · rw [hheld]
    exact h.held
  · rw [hheld]
    exact ⟨clock, rfl⟩

end Outbox

end RoomSync
