import RoomSync.Config
import RoomSync.Message

namespace RoomSync

mutual

/-- Merge runs of adjacent patches. -/
def coalesce : List DataMessage → List DataMessage
  | [] => []
  | .patch p :: rest => coalesceAfter p rest
  | .pushResult r :: rest => .pushResult r :: coalesce rest

def coalesceAfter (p : Patch) : List DataMessage → List DataMessage
  | [] => [.patch p]
  | .patch next :: rest => coalesceAfter (p.absorb next) rest
  | .pushResult r :: rest => .patch p :: .pushResult r :: coalesce rest

end

/-- The clock that a session is at once it has a message. -/
def DataMessage.clock : DataMessage → Nat
  | .patch p => p.toClock
  | .pushResult r => r.clock

/-- The outbox of a connected session. A message that comes while no window is open is sent at once
and opens a window; until the window closes, further messages are held back. -/
structure Outbox where
  /-- The clock of the newest message handed over. -/
  lastSent : Nat
  deadline : Option Nat
  openedAt : Nat
  held : List DataMessage
deriving DecidableEq, Inhabited

/-- What becomes of a message that is put into an outbox. -/
inductive Posting where
  | send (batch : List DataMessage)
  | held
  | overflow
deriving DecidableEq, Inhabited

namespace Outbox

def start (clock now : Nat) : Outbox := ⟨clock, none, now, []⟩

def patchTo (o : Outbox) (clock : Nat) (changes : Changes) : Patch := ⟨o.lastSent, clock, changes⟩

/-- Hand over a message. Each held message prolongs the window, but not beyond the longest delay
after its opening. -/
def enqueue (o : Outbox) (msg : DataMessage) (now : Nat) (config : Config) : Outbox × Posting :=
  let o := { o with lastSent := msg.clock }
  match o.deadline with
  | none => ({ o with deadline := some (now + config.debounce), openedAt := now }, .send [msg])
  | some _ =>
    if config.maxOutstanding ≤ o.held.length then (o, .overflow)
    else
      ({ o with
          held := o.held ++ [msg]
          deadline := some (min (now + config.debounce) (o.openedAt + config.maxBatchDelay)) },
        .held)

/-- Close the window if it is due. What was held back is returned for sending, and then a new window
opens. -/
def flushDue (o : Outbox) (now debounce : Nat) : Outbox × Option (List DataMessage) :=
  match o.deadline with
  | none => (o, none)
  | some deadline =>
    if now < deadline then (o, none)
    else if o.held.isEmpty then ({ o with deadline := none }, none)
    else
      ({ o with deadline := some (now + debounce), openedAt := now, held := [] },
        some (coalesce o.held))

end Outbox

end RoomSync
