import RoomSync.Proofs.Registry

namespace RoomSync

open Table

structure Newcomer where
  key : String
  socket : SocketId
  info : Content
  now : Nat

inductive Request where
  | getOrCreate (document : String)
  | openSession (document : String) (newcomer : Newcomer)
  | removeIfEmpty (document : String)
  | tickAll (now : Nat) (visit : List (String × RoomId) → List (String × RoomId))
  | kick (document key : String) (now : Nat)

inductive Answer where
  | room (id : RoomId)
  | removed (gone : Bool)
  | events (events : List (String × LifecycleEvent))
  | kicked (present : Bool)

structure Sweep where
  emptied : List String
  events : List (String × LifecycleEvent)

/-- The next section of a task. -/
inductive Task where
  | finds (document : String) (newcomer? : Option Newcomer)
  | makes (document : String) (newcomer? : Option Newcomer)
  /-- Makes sure that the room which was found is still the document's. -/
  | confirms (document : String) (id : RoomId) (newcomer : Newcomer)
  /-- Keeps the map locked for reading, and waits for the room. -/
  | enrolls (document : String) (id : RoomId) (newcomer : Newcomer)
  | clears (document : String) (sweep? : Option Sweep)
  /-- Keeps the map locked for writing, and waits for the room. -/
  | examines (document : String) (id : RoomId) (sweep? : Option Sweep)
  /-- Keeps the map locked for writing, but not the room, of which it has taken a snapshot. -/
  | retires (document : String) (snapshot : Snapshot) (sweep? : Option Sweep)
  | surveys (now : Nat) (visit : List (String × RoomId) → List (String × RoomId))
  | ticks (now : Nat) (rooms : List (String × RoomId)) (sweep : Sweep)
  | seeks (document key : String) (now : Nat)
  | evicts (id : RoomId) (key : String) (now : Nat)
  | ended (answer : Answer)
  /-- The task was given up where it waited, and its locks are free again. -/
  | dropped

/-- How the map is locked. -/
inductive Access where
  | none
  | shared
  | exclusive
deriving DecidableEq

def Access.admits : Access → Access → Bool
  | .none, _ | _, .none | .shared, .shared => true
  | .shared, .exclusive | .exclusive, .shared | .exclusive, .exclusive => false

namespace Task

/-- How the map is locked while a task waits for its next section. -/
def holds : Task → Access
  | .enrolls .. => .shared
  | .examines .. | .retires .. => .exclusive
  | _ => .none

def wants : Task → Access
  | .finds .. | .confirms .. | .surveys .. | .seeks .. => .shared
  | .makes .. | .clears .. => .exclusive
  | _ => .none

def found (document : String) (id : RoomId) : Option Newcomer → Task
  | none => .ended (.room id)
  | some newcomer => .confirms document id newcomer

def sweeps : Sweep → Task
  | ⟨[], events⟩ => .ended (.events events)
  | ⟨document :: rest, events⟩ => .clears document (some ⟨rest, events⟩)

def cleared (gone : Bool) : Option Sweep → Task
  | none => .ended (.removed gone)
  | some sweep => sweeps sweep

variable {σ : Type} [Host σ]

/-- What the next section of a task does to the registry, once it has its locks, and what is left to
be done. -/
def proceed (r : Registry σ) : Task → Registry σ × Task
  | .finds document newcomer? =>
    match r.live.get? document with
    | some id => (r, found document id newcomer?)
    | none => (r, .makes document newcomer?)
  | .makes document newcomer? =>
    let (r, id) := r.getOrCreate document
    (r, found document id newcomer?)
  | .confirms document id newcomer =>
    (r, if r.live.get? document = some id then .enrolls document id newcomer
      else .finds document (some newcomer))
  | .enrolls _ id newcomer =>
    (r.onRoom id fun l => l.openSocket newcomer.key newcomer.socket newcomer.info newcomer.now,
      .ended (.room id))
  | .clears document sweep? =>
    match r.live.get? document with
    | some id => (r, .examines document id sweep?)
    | none => (r, cleared false sweep?)
  | .examines document id sweep? =>
    match r.room? id with
    | some room =>
      (r, if room.isEmpty then .retires document room.snapshot sweep? else cleared false sweep?)
    | none => (r, cleared false sweep?)
  | .retires document snapshot sweep? =>
    ({ r.save document snapshot with live := r.live.erase document }, cleared true sweep?)
  | .surveys now visit => (r, .ticks now (visit r.live.entries) ⟨[], []⟩)
  | .ticks _ [] sweep => (r, sweeps sweep)
  | .ticks now (entry :: rest) sweep =>
    let (r, events, emptied) := Registry.tickRoom now (r, sweep.events, sweep.emptied) entry
    (r, .ticks now rest ⟨emptied, events⟩)
  | .seeks document key now =>
    match r.live.get? document with
    | some id => (r, .evicts id key now)
    | none => (r, .ended (.kicked false))
  | .evicts id key now =>
    let (r, answer) := r.onRoom? id fun l => l.kick key now
    (r, .ended (.kicked (answer.getD false)))
  | .ended answer => (r, .ended answer)
  | .dropped => (r, .dropped)

def latest (r : Registry σ) (latest : Table RoomId) : Task → Table RoomId
  | .makes document _ => latest.insert document (r.getOrCreate document).2
  | _ => latest

end Task

def Request.task : Request → Task
  | .getOrCreate document => .finds document none
  | .openSession document newcomer => .finds document (some newcomer)
  | .removeIfEmpty document => .clears document none
  | .tickAll now visit => .surveys now visit
  | .kick document key now => .seeks document key now

/-- A registry and everybody who uses it. -/
structure Site (σ : Type) where
  registry : Registry σ
  tasks : List Task
  /-- The room that was made last for each document. -/
  latest : Table RoomId

namespace Site

variable {σ : Type} [Host σ]

def start (config : Config) (snapshots : Table Snapshot) (host : σ) : Site σ :=
  ⟨.start config snapshots host, [], Table.empty⟩

inductive Event (σ : Type) where
  | begins (request : Request)
  | proceeds (i : Nat)
  | drops (i : Nat)
  | calls (id : RoomId) (call : LiveRoom.Call) (hcall : call.OnOpenSockets)
  | changes (host : σ)

def grants (s : Site σ) (access : Access) : Bool := s.tasks.all fun t => access.admits t.holds

def proceed (s : Site σ) (i : Nat) : Site σ :=
  match s.tasks[i]? with
  | none => s
  | some t =>
    if s.grants t.wants then
      ⟨(t.proceed s.registry).1, s.tasks.set i (t.proceed s.registry).2, t.latest s.registry s.latest⟩
    else s

def step (s : Site σ) : Event σ → Site σ
  | .begins request => { s with tasks := s.tasks ++ [request.task] }
  | .proceeds i => s.proceed i
  | .drops i => { s with tasks := s.tasks.set i .dropped }
  | .calls id call _ => { s with registry := s.registry.onRoom id (·.perform call) }
  | .changes host => { s with registry := { s.registry with host } }

def run (s : Site σ) (events : List (Event σ)) : Site σ := events.foldl step s

end Site

variable {σ : Type} [Host σ] {r r' : Registry σ} {t : Task} {answer : Answer}

theorem Access.admits_comm (a b : Access) : a.admits b = b.admits a := by
  cases a <;> cases b <;> rfl

theorem Task.holds_of_wants (h : t.wants ≠ .none) : t.holds = .none := by
  cases t <;> first | rfl | exact absurd rfl h

/-- Nobody else does anything until a task has its answer. -/
def Task.Finishes (t : Task) (r r' : Registry σ) (answer : Answer) : Prop :=
  ∃ n, ∀ latest, ∃ latest',
    (⟨r, [t], latest⟩ : Site σ).run (List.replicate n (.proceeds 0)) =
      ⟨r', [.ended answer], latest'⟩

namespace Task.Finishes

theorem done (r : Registry σ) (answer : Answer) : (Task.ended answer).Finishes r r answer :=
  ⟨0, fun latest => ⟨latest, rfl⟩⟩

theorem step {rest : Task} {r₁ : Registry σ} (h : t.proceed r = (r₁, rest))
    (hrest : rest.Finishes r₁ r' answer) : t.Finishes r r' answer := by
  obtain ⟨n, hn⟩ := hrest
  refine ⟨n + 1, fun latest => ?_⟩
  have hgrants : (⟨r, [t], latest⟩ : Site σ).grants t.wants = true := by
    by_cases hw : t.wants = .none
    · simp [Site.grants, hw, Access.admits]
    · simp [Site.grants, Task.holds_of_wants hw, Access.admits]
  obtain ⟨latest', hlatest⟩ := hn (t.latest r latest)
  refine ⟨latest', Eq.trans ?_ hlatest⟩
  rw [List.replicate_succ, Site.run, List.foldl_cons, Site.step, Site.proceed]
  simp only [List.getElem?_cons_zero, hgrants, if_true, List.set_cons_zero, h]
  rfl

theorem found (document : String) (newcomer? : Option Newcomer)
    (h : (Task.found document (r.getOrCreate document).2 newcomer?).Finishes
      (r.getOrCreate document).1 r' answer) :
    (Task.finds document newcomer?).Finishes r r' answer := by
  obtain ⟨id, hlive, he⟩ | ⟨hlive, -⟩ := r.getOrCreate_cases document
  · rw [he] at h
    exact .step (by rw [Task.proceed, hlive]) h
  · have hmakes : (Task.makes document newcomer?).Finishes r r' answer := .step rfl h
    exact .step (by rw [Task.proceed, hlive]) hmakes

theorem getOrCreate (r : Registry σ) (document : String) :
    (Request.getOrCreate document).task.Finishes r (r.getOrCreate document).1
      (.room (r.getOrCreate document).2) :=
  .found document none (.done _ _)

theorem openSession (r : Registry σ) (document : String) (n : Newcomer) :
    (Request.openSession document n).task.Finishes r
      (r.openSession document n.key n.socket n.info n.now).1
      (.room (r.openSession document n.key n.socket n.info n.now).2) := by
  rw [Registry.openSession_eq]
  have henrolls : (Task.enrolls document (r.getOrCreate document).2 n).Finishes
      (r.getOrCreate document).1 _ (.room (r.getOrCreate document).2) := .step rfl (.done _ _)
  refine .found document (some n) (.step ?_ henrolls)
  rw [Task.found, Task.proceed, if_pos (r.live_getOrCreate document)]

theorem clears (document : String) (sweep? : Option Sweep)
    (h : (cleared (r.removeIfEmpty document).2 sweep?).Finishes (r.removeIfEmpty document).1 r'
      answer) :
    (Task.clears document sweep?).Finishes r r' answer := by
  rw [Registry.removeIfEmpty, Registry.liveRoom?] at h
  cases hlive : r.live.get? document with
  | none =>
    rw [hlive, Option.bind_none] at h
    exact .step (by rw [Task.proceed, hlive]) h
  | some id =>
    rw [hlive, Option.bind_some] at h
    refine .step (by rw [Task.proceed, hlive]) ?_
    cases hroom : r.room? id with
    | none =>
      rw [hroom] at h
      exact .step (by rw [Task.proceed, hroom]) h
    | some room =>
      rw [hroom] at h
      dsimp only at h
      by_cases hempty : room.isEmpty = true
      · rw [if_pos hempty] at h
        have hretires : (Task.retires document room.snapshot sweep?).Finishes r r' answer :=
          .step rfl h
        exact .step (by rw [Task.proceed, hroom]; exact congrArg _ (if_pos hempty)) hretires
      · rw [if_neg hempty] at h
        exact .step (by rw [Task.proceed, hroom]; exact congrArg _ (if_neg hempty)) h

theorem removeIfEmpty (r : Registry σ) (document : String) :
    (Request.removeIfEmpty document).task.Finishes r (r.removeIfEmpty document).1
      (.removed (r.removeIfEmpty document).2) :=
  .clears document none (.done _ _)

theorem sweeps (r : Registry σ) (emptied : List String) (events : List (String × LifecycleEvent)) :
    (Task.sweeps ⟨emptied, events⟩).Finishes r
      (emptied.foldl (fun r document => (r.removeIfEmpty document).1) r) (.events events) := by
  induction emptied generalizing r with
  | nil => exact .done r _
  | cons document rest ih => exact .clears document _ (ih _)

theorem ticks (now : Nat) (rooms : List (String × RoomId)) (r : Registry σ) (sweep : Sweep) :
    let swept := rooms.foldl (Registry.tickRoom now) (r, sweep.events, sweep.emptied)
    (Task.ticks now rooms sweep).Finishes r
      (swept.2.2.foldl (fun r document => (r.removeIfEmpty document).1) swept.1)
      (.events swept.2.1) := by
  induction rooms generalizing r sweep with
  | nil => exact .step rfl (.sweeps r _ _)
  | cons entry rest ih => exact .step rfl (ih _ _)

theorem tickAll (r : Registry σ) (now : Nat) :
    (Request.tickAll now id).task.Finishes r (r.tickAll now).1 (.events (r.tickAll now).2) :=
  .step rfl (.ticks now r.live.entries r ⟨[], []⟩)

theorem kick (r : Registry σ) (document key : String) (now : Nat) :
    (Request.kick document key now).task.Finishes r (r.kick document key now).1
      (.kicked (r.kick document key now).2) := by
  rw [Registry.kick]
  cases hlive : r.live.get? document with
  | none => exact .step (by rw [Request.task, Task.proceed, hlive]) (.done _ _)
  | some id =>
    have hevicts : (Task.evicts id key now).Finishes r _ _ := .step rfl (.done _ _)
    exact .step (by rw [Request.task, Task.proceed, hlive]) hevicts

end Task.Finishes

end RoomSync
