import RoomSync.Schema

namespace RoomSync

structure Config where
  schema : Schema := .base 1
  /-- How long a socket may stay open without a handshake. -/
  startTimeout : Nat := 10000
  /-- How long a connected session may stay silent. -/
  idleTimeout : Nat := 20000
  /-- How long a lost session may be resumed. -/
  removalGrace : Nat := 10000
  /-- How long messages to a session are held back after one was sent. -/
  debounce : Nat := 16
  /-- How long later messages may prolong that. -/
  maxBatchDelay : Nat := 64
  /-- How many messages are held back before the session counts as too slow. -/
  maxOutstanding : Nat := 512
  maxSessions : Nat := 100
  maxTombstones : Nat := 3000
  pruneBuffer : Nat := 300
deriving DecidableEq, Inhabited

end RoomSync
