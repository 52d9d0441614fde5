import RoomSync.Room.Activity

namespace RoomSync

abbrev RoomId := Nat

/-- The rooms of a host, by document. A room is made when somebody first asks for its document, from
the saved snapshot if there is one, and is saved and let go once it has no session left. -/
structure Registry (σ : Type) where
  config : Config
  snapshots : Table Snapshot
  /-- Every room that was made. -/
  rooms : List Room
  /-- The room that a document has now. -/
  live : Table RoomId
  host : σ

namespace Registry

variable {σ α : Type}

def start (config : Config) (snapshots : Table Snapshot) (host : σ) : Registry σ :=
  ⟨config, snapshots, [], Table.empty, host⟩

def room? (r : Registry σ) (id : RoomId) : Option Room := r.rooms[id]?

def liveRoom? (r : Registry σ) (document : String) : Option Room :=
  (r.live.get? document).bind r.room?

def load (r : Registry σ) (document : String) : Option Snapshot := r.snapshots.get? document

def save (r : Registry σ) (document : String) (snapshot : Snapshot) : Registry σ :=
  { r with snapshots := r.snapshots.insert document snapshot }

def createRoom (r : Registry σ) (document : String) : Room :=
  match r.load document with
  | some snapshot => .ofSnapshot r.config snapshot
  | none => .new r.config

def getOrCreate (r : Registry σ) (document : String) : Registry σ × RoomId :=
  match r.live.get? document with
  | some id => (r, id)
  | none =>
    let id := r.rooms.length
    ({ r with rooms := r.rooms ++ [r.createRoom document], live := r.live.insert document id }, id)

def onRoom? (r : Registry σ) (id : RoomId) (act : LiveRoom σ → LiveRoom σ × α) :
    Registry σ × Option α :=
  match r.room? id with
  | none => (r, none)
  | some room =>
    let (l, answer) := act ⟨room, r.host⟩
    ({ r with rooms := r.rooms.set id l.room, host := l.host }, some answer)

def onRoom (r : Registry σ) (id : RoomId) (act : LiveRoom σ → LiveRoom σ) : Registry σ :=
  (r.onRoom? id fun l => (act l, ())).1

/-- Let a room go if it is the document's and has no session left, after saving it. -/
def removeIfEmpty (r : Registry σ) (document : String) : Registry σ × Bool :=
  match r.liveRoom? document with
  | none => (r, false)
  | some room =>
    if room.isEmpty then
      ({ r.save document room.snapshot with live := r.live.erase document }, true)
    else (r, false)

variable [Host σ]

/-- Open a session in a room, provided that it is still the document's. -/
def register? (r : Registry σ) (document : String) (id : RoomId) (key : String)
    (socket : SocketId) (info : Content) (now : Nat) : Option (Registry σ) :=
  if r.live.get? document = some id then
    some (r.onRoom id fun l => l.openSocket key socket info now)
  else none

def openSession (r : Registry σ) (document key : String) (socket : SocketId) (info : Content)
    (now : Nat) : Registry σ × RoomId :=
  let (r, id) := r.getOrCreate document
  ((r.register? document id key socket info now).getD r, id)

/-- One room of a sweep: what happened in it is added to the events, and its document to those to be
let go if nobody is left in it. -/
def tickRoom (now : Nat) (state : Registry σ × List (String × LifecycleEvent) × List String)
    (entry : String × RoomId) : Registry σ × List (String × LifecycleEvent) × List String :=
  let (r, events, emptied) := state
  let (r, answer) := r.onRoom? entry.2 fun l =>
    let (l, happened) := l.tick now
    (l, happened, l.room.isEmpty)
  match answer with
  | none => (r, events, emptied)
  | some (happened, isEmpty) =>
    (r, events ++ happened.map fun e => (entry.1, e),
      if isEmpty then emptied ++ [entry.1] else emptied)

def tickAll (r : Registry σ) (now : Nat) : Registry σ × List (String × LifecycleEvent) :=
  let (r, events, emptied) := r.live.entries.foldl (tickRoom now) (r, [], [])
  (emptied.foldl (fun r document => (r.removeIfEmpty document).1) r, events)

def kick (r : Registry σ) (document key : String) (now : Nat) : Registry σ × Bool :=
  match r.live.get? document with
  | none => (r, false)
  | some id =>
    let (r, answer) := r.onRoom? id fun l => l.kick key now
    (r, answer.getD false)

end Registry

end RoomSync
