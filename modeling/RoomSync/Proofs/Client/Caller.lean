import RoomSync.Proofs.Client
import RoomSync.Proofs.Draft.Overlay

namespace RoomSync

/-- What can happen to a client: a call of its application, or a step of one of its tasks. -/
inductive Occurrence where
  | pushes (mutations : List Mutation)
  | appears (content : Content)
  | pings
  | dials
  | getsThrough
  | getsNowhere
  | hangsUp
  | takesEvents
  /-- The reading task of a connection takes a message. -/
  | hears (connection : Nat) (msg : ServerMessage)
  /-- The reading task of a connection finds that it has ended. -/
  | losesTouch (connection : Nat)
  | writes (connection : Nat)
  | cannotWrite (connection : Nat)
deriving Inhabited

namespace Client

variable (c : Client) (i : Nat)

def hears (msg : ServerMessage) : Client :=
  match c.connection? i with
  | none => c
  | some connection => if connection.reading then c.fold i connection msg else c

theorem read_cases (frame : Frame) : c.read i frame = c ∨
    (∃ msg, c.read i frame = c.hears i msg) ∨ c.read i frame = c.readEnd i := by
  rw [read, readEnd]
  cases hc : c.connection? i with
  | none => exact .inl rfl
  | some connection =>
    dsimp only
    split
    · cases frame with
      | binary bytes =>
        dsimp only
        cases ServerMessage.decode bytes with
        | error _ => exact .inl rfl
        | ok msg =>
          refine .inr (.inl ⟨msg, ?_⟩)
          rw [hears, hc]
          exact (if_pos ‹_›).symm
      | close => exact .inr (.inr rfl)
      | text _ | ping _ | pong _ => exact .inl rfl
    · exact .inl rfl

end Client

/-- A client, with the handshake of an attempt to connect that goes on. -/
structure Caller where
  client : Client
  dialing : Option ConnectRequest
deriving Inhabited

namespace Caller

def start (url documentId key : String) (schema : Schema) : Caller :=
  ⟨.new url documentId key schema, none⟩

def step (c : Caller) : Occurrence → Caller
  | .pushes mutations => { c with client := (c.client.push mutations).1 }
  | .appears content => { c with client := (c.client.setPresence content).1 }
  | .pings => { c with client := c.client.ping.1 }
  | .dials => ⟨c.client.beginConnect.1, some c.client.beginConnect.2⟩
  | .getsThrough =>
    match c.dialing with
    | none => c
    | some request => ⟨c.client.connectMade request, none⟩
  | .getsNowhere => if c.dialing.isSome then ⟨c.client.connectFailed, none⟩ else c
  | .hangsUp => ⟨c.client.disconnect, none⟩
  | .takesEvents => { c with client := c.client.takeEvents.1 }
  | .hears i msg => { c with client := c.client.hears i msg }
  | .losesTouch i => { c with client := c.client.readEnd i }
  | .writes i => { c with client := (c.client.write i).1 }
  | .cannotWrite i => { c with client := c.client.writeFailed i }

def run (c : Caller) (occurrences : List Occurrence) : Caller := occurrences.foldl step c

/-- Whatever frame the reading task of a connection takes, that is an occurrence or nothing. -/
theorem read_run (c : Caller) (i : Nat) (frame : Frame) :
    ∃ occurrence? : Option Occurrence,
      { c with client := c.client.read i frame } = c.run occurrence?.toList := by
  obtain he | ⟨msg, he⟩ | he := c.client.read_cases i frame <;> rw [he]
  · exact ⟨none, rfl⟩
  · exact ⟨some (.hears i msg), rfl⟩
  · exact ⟨some (.losesTouch i), rfl⟩

/-- What the application sees of the replica, stamps apart. -/
def face (c : Caller) : Nat × Table (String × Content) :=
  (c.client.draft.replica.clock, c.client.draft.replica.values)

end Caller

/-- The part of a caller that its working copy depends on. -/
structure Caller.Core where
  draft : Draft
  dialing : Bool
  state : ConnectionState
  generation : Nat
  links : List (Nat × Bool)

namespace Caller.Core

def hears (k : Core) (i : Nat) (msg : ServerMessage) : Core :=
  match k.links[i]? with
  | some (generation, true) =>
    { k with
      draft := (k.draft.fold msg).draft
      state := match msg with
        | .connected _ => if generation = k.generation then .connected else k.state
        | _ => k.state }
  | _ => k

def losesTouch (k : Core) (i : Nat) : Core :=
  match k.links[i]? with
  | some (generation, true) =>
    { k with
      state := if generation = k.generation then .disconnected else k.state
      links := k.links.modify i fun link => (link.1, false) }
  | _ => k

def step (k : Core) : Occurrence → Core
  | .pushes mutations => { k with draft := (k.draft.push mutations).1 }
  | .appears _ => if k.state = .connected then { k with draft := k.draft.allot.1 } else k
  | .dials => { k with state := .connecting, generation := k.generation + 1, dialing := true }
  | .getsThrough =>
    if k.dialing then { k with dialing := false, links := k.links ++ [(k.generation, true)] } else k
  | .getsNowhere => if k.dialing then { k with state := .disconnected, dialing := false } else k
  | .hangsUp =>
    { k with state := .disconnected, generation := k.generation + 1, dialing := false }
  | .hears i msg => k.hears i msg
  | .losesTouch i => k.losesTouch i
  | .pings | .takesEvents | .writes _ | .cannotWrite _ => k

def run (k : Core) (occurrences : List Occurrence) : Core := occurrences.foldl step k

def face (k : Core) : Nat × Table (String × Content) :=
  (k.draft.replica.clock, k.draft.replica.values)

def generations (k : Core) : List Nat := k.links.map Prod.fst

end Caller.Core

namespace Client

variable (c : Client) (i : Nat)

def links : List (Nat × Bool) := c.connections.map fun x => (x.generation, x.reading)

def core (dialing : Bool) : Caller.Core := ⟨c.draft, dialing, c.state, c.generation, c.links⟩

theorem links_modifyConnection {f : Connection → Connection} {g : Nat × Bool → Nat × Bool}
    (hf : ∀ x, ((f x).generation, (f x).reading) = g (x.generation, x.reading)) :
    (c.modifyConnection i f).links = c.links.modify i g := by
  refine List.ext_getElem? fun j => ?_
  rw [links, links, List.getElem?_map, List.getElem?_modify, List.getElem?_map]
  change Option.map _ ((c.connections.modify i f)[j]?) = _
  rw [List.getElem?_modify]
  cases c.connections[j]? with
  | none => rfl
  | some x => by_cases h : i = j <;> simp [h, hf]

theorem links_modifyConnection_of_same {f : Connection → Connection}
    (hf : ∀ x, (f x).generation = x.generation ∧ (f x).reading = x.reading) :
    (c.modifyConnection i f).links = c.links := by
  rw [c.links_modifyConnection i (g := id) fun x => by rw [(hf x).1, (hf x).2]; rfl]
  exact List.modify_id ..

variable (dialing : Bool)

theorem core_modifyConnection {f : Connection → Connection}
    (hf : ∀ x, (f x).generation = x.generation ∧ (f x).reading = x.reading) :
    (c.modifyConnection i f).core dialing = c.core dialing :=
  congrArg (Caller.Core.mk c.draft dialing c.state c.generation) (c.links_modifyConnection_of_same i hf)

theorem core_handTo (messages : List ClientMessage) :
    (c.handTo i messages).core dialing = c.core dialing :=
  c.core_modifyConnection i dialing fun x => by split <;> exact ⟨rfl, rfl⟩

theorem core_send (msg : ClientMessage) : (c.send msg).1.core dialing = c.core dialing := by
  rw [send]
  cases c.current with
  | none => rfl
  | some i =>
    dsimp only
    cases c.connection? i with
    | none => rfl
    | some connection =>
      dsimp only
      split
      · exact c.core_handTo i dialing [msg]
      · rfl

theorem core_push (mutations : List Mutation) : (c.push mutations).1.core dialing =
    { c.core dialing with draft := (c.draft.push mutations).1 } := by
  rw [push]
  dsimp only
  split
  · exact core_send ..
  · rfl

theorem core_setPresence (content : Content) : (c.setPresence content).1.core dialing =
    if c.state = .connected then { c.core dialing with draft := c.draft.allot.1 }
    else c.core dialing := by
  rw [setPresence]
  split
  · exact core_send ..
  · rfl

theorem core_write : (c.write i).1.core dialing = c.core dialing := by
  rw [write]
  split
  · rfl
  · split
    · split
      · exact c.core_modifyConnection i dialing fun _ => ⟨rfl, rfl⟩
      · split
        · rfl
        · exact c.core_modifyConnection i dialing fun _ => ⟨rfl, rfl⟩
    · rfl

theorem core_connectMade (request : ConnectRequest) : (c.connectMade request).core false =
    { c.core false with links := c.links ++ [(c.generation, true)] } :=
  congrArg (Caller.Core.mk c.draft false c.state c.generation) List.map_append

theorem core_fold (connection : Connection) (msg : ServerMessage) :
    (c.fold i connection msg).core dialing =
      { c.core dialing with
        draft := (c.draft.fold msg).draft
        state := match msg with
          | .connected _ => if connection.generation = c.generation then .connected else c.state
          | _ => c.state } := by
  let c₁ : Client := { c with draft := (c.draft.fold msg).draft }
  have hcore : (if c.current = some i then c₁.handTo i (c.draft.fold msg).replies else c₁).core
      dialing = c₁.core dialing := by
    split
    · exact c₁.core_handTo i dialing _
    · rfl
  unfold fold
  dsimp only
  generalize (if c.current = some i then c₁.handTo i _ else c₁) = c₂ at hcore ⊢
  cases msg with
  | connected accepted =>
    have hgeneration : c₂.generation = c.generation := congrArg Caller.Core.generation hcore
    rw [← hgeneration, Bool.true_and]
    by_cases hg : connection.generation = c₂.generation
    · simp only [hg, decide_true, if_true]
      exact congrArg (fun k : Caller.Core => { k with state := .connected }) hcore
    · simp only [hg, decide_false, Bool.false_eq_true, if_false]
      exact hcore
  | data _ | rejectConnect _ | pong | error _ => exact hcore

theorem core_link? : (c.core dialing).links[i]? =
    (c.connection? i).map fun x => (x.generation, x.reading) :=
  List.getElem?_map ..

theorem core_hears (msg : ServerMessage) :
    (c.hears i msg).core dialing = (c.core dialing).hears i msg := by
  rw [hears, Caller.Core.hears, c.core_link? i dialing]
  cases c.connection? i with
  | none => rfl
  | some connection =>
    dsimp only [Option.map]
    cases hr : connection.reading with
    | false => rfl
    | true => exact c.core_fold i dialing connection msg

theorem core_readEnd : (c.readEnd i).core dialing = (c.core dialing).losesTouch i := by
  rw [readEnd, Caller.Core.losesTouch, c.core_link? i dialing]
  cases c.connection? i with
  | none => rfl
  | some connection =>
    dsimp only [Option.map]
    cases hr : connection.reading with
    | false => rfl
    | true =>
      let c₁ := c.modifyConnection i fun connection => { connection with reading := false }
      have hcore : c₁.core dialing =
          { c.core dialing with links := c.links.modify i fun link => (link.1, false) } :=
        congrArg (Caller.Core.mk c.draft dialing c.state c.generation)
          (c.links_modifyConnection i fun _ => rfl)
      change (if connection.generation = c.generation then { c₁ with state := .disconnected }
        else c₁).core dialing = { c.core dialing with
          state := if connection.generation = c.generation then .disconnected else c.state
          links := c.links.modify i fun link => (link.1, false) }
      by_cases hg : connection.generation = c.generation
      · rw [if_pos hg, if_pos hg]
        exact congrArg (fun k : Caller.Core => { k with state := .disconnected }) hcore
      · rw [if_neg hg, if_neg hg]
        exact hcore

end Client

namespace Caller

def core (c : Caller) : Core := c.client.core c.dialing.isSome

theorem core_step (c : Caller) (o : Occurrence) : (c.step o).core = c.core.step o := by
  cases o with
  | pushes mutations => exact c.client.core_push _ mutations
  | appears content => exact c.client.core_setPresence _ content
  | pings => exact c.client.core_send _ .ping
  | dials => rfl
  | getsThrough =>
    obtain ⟨client, dialing⟩ := c
    cases dialing with
    | none => rfl
    | some request => exact client.core_connectMade request
  | getsNowhere =>
    obtain ⟨client, dialing⟩ := c
    cases dialing <;> rfl
  | hangsUp => rfl
  | takesEvents => rfl
  | hears i msg => exact c.client.core_hears i _ msg
  | losesTouch i => exact c.client.core_readEnd i _
  | writes i => exact c.client.core_write i _
  | cannotWrite i => exact c.client.core_modifyConnection i _ fun _ => ⟨rfl, rfl⟩

theorem core_run (c : Caller) (occurrences : List Occurrence) :
    (c.run occurrences).core = c.core.run occurrences := by
  induction occurrences generalizing c with
  | nil => rfl
  | cons o rest ih => exact (ih (c.step o)).trans (congrArg (Core.run · rest) (c.core_step o))

end Caller

namespace Caller.Core

variable {k : Core}

structure Sound (k : Core) : Prop where
  numbered : k.draft.Numbered
  ascending : k.generations.Pairwise (· < ·)
  bounded : ∀ g ∈ k.generations, g ≤ k.generation
  dialing : k.dialing = true → ∀ g ∈ k.generations, g < k.generation

theorem sound_start (url documentId key : String) (schema : Schema) :
    (start url documentId key schema).core.Sound :=
  ⟨Draft.numbered_start key, .nil, nofun, nofun⟩

theorem hears_cases (k : Core) (i : Nat) (msg : ServerMessage) : k.hears i msg = k ∨
    ∃ state, k.hears i msg = { k with draft := (k.draft.fold msg).draft, state } := by
  rw [hears]
  split
  · exact .inr ⟨_, rfl⟩
  · exact .inl rfl

theorem generations_losesTouch (k : Core) (i : Nat) :
    (k.losesTouch i).generations = k.generations := by
  rw [losesTouch]
  split
  · refine List.ext_getElem? fun j => ?_
    simp only [generations, List.getElem?_map, List.getElem?_modify]
    cases k.links[j]? with
    | none => rfl
    | some link => by_cases h : i = j <;> simp [h]
  · rfl

theorem losesTouch_cases (k : Core) (i : Nat) : ∃ state links,
    k.losesTouch i = { k with state, links } := by
  rw [losesTouch]
  split
  · exact ⟨_, _, rfl⟩
  · exact ⟨_, _, rfl⟩

theorem generations_getsThrough (hd : k.dialing = true) :
    (k.step .getsThrough).generations = k.generations ++ [k.generation] := by
  rw [step, if_pos hd]
  exact List.map_append

theorem Sound.step (h : k.Sound) (o : Occurrence) : (k.step o).Sound := by
  have hdials : ∀ g ∈ k.generations, g < k.generation + 1 := fun g hg =>
    Nat.lt_succ_of_le (h.bounded g hg)
  cases o with
  | pushes mutations => exact ⟨h.numbered.push mutations, h.ascending, h.bounded, h.dialing⟩
  | appears content =>
    rw [Core.step]
    split
    · exact ⟨h.numbered.allot, h.ascending, h.bounded, h.dialing⟩
    · exact h
  | dials => exact ⟨h.numbered, h.ascending, fun g hg => Nat.le_of_lt (hdials g hg), fun _ => hdials⟩
  | getsThrough =>
    by_cases hd : k.dialing = true
    · have hlater := h.dialing hd
      have hgenerations := generations_getsThrough hd
      rw [Core.step, if_pos hd] at hgenerations ⊢
      refine ⟨h.numbered, ?_, ?_, nofun⟩
      · rw [hgenerations]
        refine List.pairwise_append.2 ⟨h.ascending, List.pairwise_singleton .., fun g hg g' hg' => ?_⟩
        obtain rfl := List.mem_singleton.1 hg'
        exact hlater g hg
      · rw [hgenerations]
        refine List.forall_mem_append.2 ⟨h.bounded, fun g hg => ?_⟩
        exact Nat.le_of_eq (List.mem_singleton.1 hg)
    · rw [Core.step, if_neg hd]
      exact h
  | getsNowhere =>
    rw [Core.step]
    split
    · exact ⟨h.numbered, h.ascending, h.bounded, nofun⟩
    · exact h
  | hangsUp => exact ⟨h.numbered, h.ascending, fun g hg => Nat.le_of_lt (hdials g hg), nofun⟩
  | hears i msg =>
    rw [Core.step]
    obtain he | ⟨state, he⟩ := k.hears_cases i msg
    · rw [he]
      exact h
    · rw [he]
      exact ⟨(k.draft.keeps_fold msg).numbered h.numbered, h.ascending, h.bounded, h.dialing⟩
  | losesTouch i =>
    have hgenerations := k.generations_losesTouch i
    rw [Core.step]
    obtain ⟨state, links, he⟩ := k.losesTouch_cases i
    rw [he] at hgenerations ⊢
    refine ⟨h.numbered, ?_, ?_, ?_⟩
    · rw [hgenerations]
      exact h.ascending
    · rw [hgenerations]
      exact h.bounded
    · rw [hgenerations]
      exact h.dialing
  | pings | takesEvents | writes _ | cannotWrite _ => exact h

theorem Sound.run (h : k.Sound) (occurrences : List Occurrence) : (k.run occurrences).Sound := by
  induction occurrences generalizing k with
  | nil => exact h
  | cons o rest ih => exact ih (h.step o)

theorem length_generations_step (k : Core) (o : Occurrence) :
    k.generations.length ≤ (k.step o).generations.length := by
  cases o with
  | getsThrough =>
    rw [Core.step]
    split
    · simp [generations]
    · exact Nat.le_refl _
  | hears i msg =>
    rw [Core.step]
    obtain he | ⟨state, he⟩ := k.hears_cases i msg
    · exact Nat.le_of_eq (congrArg (List.length ∘ generations) he).symm
    · exact Nat.le_of_eq (congrArg (List.length ∘ generations) he).symm
  | losesTouch i => exact Nat.le_of_eq (congrArg List.length (k.generations_losesTouch i)).symm
  | appears _ | getsNowhere =>
    rw [Core.step]
    split <;> exact Nat.le_refl _
  | _ => exact Nat.le_refl _

theorem Sound.lt_generation (h : k.Sound) {i g : Nat} {reading : Bool}
    (hi : i + 1 < k.generations.length) (hl : k.links[i]? = some (g, reading)) :
    g < k.generation := by
  have hg : k.generations[i] = g := by
    refine Option.some.inj ?_
    rw [← List.getElem?_eq_getElem, generations, List.getElem?_map, hl]
    rfl
  have hlt := List.pairwise_iff_getElem.1 h.ascending i (i + 1) (by omega) hi (Nat.lt_succ_self i)
  exact hg ▸ Nat.lt_of_lt_of_le hlt (h.bounded _ (List.getElem_mem hi))

end Caller.Core

namespace Caller

theorem core_length (c : Caller) :
    c.core.generations.length = c.client.connections.length := by
  rw [Core.generations, List.length_map]
  exact List.length_map ..

theorem core_hears_draft (c : Caller) (i : Nat) (msg : ServerMessage) :
    (c.client.hears i msg).draft = (c.core.hears i msg).draft :=
  congrArg Core.draft (c.client.core_hears i c.dialing.isSome msg)

end Caller

end RoomSync
