import RoomSync.Proofs.Room.Turn

namespace RoomSync

def ServerMessage.isTraffic : ServerMessage → Bool
  | .data _ | .pong => true
  | .connected _ | .rejectConnect _ | .error _ => false

inductive Dealing where
  | took (msg : ServerMessage)
  /-- The socket was handed a message and did not take it. -/
  | refused (msg : ServerMessage)
  | closed
deriving DecidableEq

def Dealing.frame? : Dealing → Option ServerMessage
  | .took msg => some msg
  | .refused _ | .closed => none

def frames (log : List Dealing) : List ServerMessage := log.filterMap Dealing.frame?

/-- A host that keeps one book of everything that is done with its sockets. -/
structure Journal (σ : Type) where
  host : σ
  entries : List (SocketId × Dealing)

namespace Journal

variable {σ : Type}

def start (host : σ) : Journal σ := ⟨host, []⟩

def dealings (j : Journal σ) (socket : SocketId) : List Dealing :=
  (j.entries.filter fun entry => entry.1 = socket).map Prod.snd

def taken (j : Journal σ) (socket : SocketId) : List ServerMessage := frames (j.dealings socket)

def closed (j : Journal σ) : List SocketId :=
  (j.entries.filter fun entry => entry.2 = .closed).map Prod.fst

instance [Host σ] : Host (Journal σ) where
  send j socket msg :=
    let (host, error) := Host.send j.host socket msg
    (⟨host, j.entries ++ [(socket, if error.isNone then .took msg else .refused msg)]⟩, error)
  close j socket := ⟨Host.close j.host socket, j.entries ++ [(socket, .closed)]⟩
  visit j keys := Host.visit j.host keys
  visit_perm j keys := Host.visit_perm j.host keys

variable [Host σ] (j : Journal σ) (socket t : SocketId) (msg : ServerMessage)

theorem entries_send : (Host.send j socket msg).1.entries = j.entries ++
    [(socket, if (Host.send j socket msg).2 = none then .took msg else .refused msg)] := by
  change j.entries ++ [(socket, if (Host.send j.host socket msg).2.isNone then _ else _)] =
    j.entries ++ [(socket, if (Host.send j.host socket msg).2 = none then _ else _)]
  simp only [Option.isNone_iff_eq_none]

theorem dealings_send :
    (Host.send j socket msg).1.dealings t = j.dealings t ++
      if socket = t then
        [if (Host.send j socket msg).2 = none then .took msg else .refused msg] else [] := by
  rw [dealings, entries_send]
  by_cases ht : socket = t <;> simp [dealings, ht]

theorem dealings_close :
    (Host.close j socket).dealings t = j.dealings t ++ if socket = t then [.closed] else [] := by
  change dealings ⟨_, j.entries ++ [(socket, .closed)]⟩ t = _
  by_cases ht : socket = t <;> simp [dealings, ht]

theorem taken_send :
    (Host.send j socket msg).1.taken t = j.taken t ++
      if (Host.send j socket msg).2 = none ∧ socket = t then [msg] else [] := by
  rw [taken, dealings_send, frames, List.filterMap_append]
  refine congrArg (j.taken t ++ ·) ?_
  generalize (Host.send j socket msg).2 = error
  by_cases ht : socket = t <;> cases error <;> simp [ht, Dealing.frame?]

theorem taken_close : (Host.close j socket).taken t = j.taken t := by
  rw [taken, dealings_close, frames, List.filterMap_append]
  refine (congrArg (j.taken t ++ ·) ?_).trans (List.append_nil _)
  split <;> rfl

theorem closed_send : (Host.send j socket msg).1.closed = j.closed := by
  rw [closed, entries_send, List.filter_append, List.map_append]
  refine (congrArg (j.closed ++ ·) ?_).trans (List.append_nil _)
  split <;> rfl

theorem mem_closed_close {j : Journal σ} {socket t : SocketId} :
    t ∈ (Host.close j socket).closed ↔ t = socket ∨ t ∈ j.closed := by
  have hclosed : (Host.close j socket).closed = j.closed ++ [socket] := by
    change closed ⟨_, j.entries ++ [(socket, .closed)]⟩ = _
    rw [closed, List.filter_append, List.map_append]
    rfl
  rw [hclosed, List.mem_append, List.mem_singleton]
  exact or_comm

end Journal

inductive Standing where
  | waiting
  | connected
  /-- Nothing is left to be done but to close it. -/
  | spent
  | closed
deriving DecidableEq

namespace Standing

def tell : Standing → ServerMessage → Option Standing
  | .waiting, .pong => some .waiting
  | .waiting, .connected _ => some .connected
  | .waiting, .rejectConnect _ | .waiting, .error _ => some .spent
  | .connected, .data _ | .connected, .pong => some .connected
  | .connected, .error _ => some .spent
  | _, _ => none

/-- Where a dealing leads, if it is in order. That a message is not taken does not matter as long as
the handshake is awaited, and is the end otherwise. -/
def next : Standing → Dealing → Option Standing
  | standing, .took msg => standing.tell msg
  | standing, .refused msg => (standing.tell msg).map fun s => if s = .waiting then s else .spent
  | .closed, .closed => none
  | _, .closed => some .closed

def after (standing : Standing) (log : List Dealing) : Option Standing :=
  log.foldlM next standing

theorem after_append (standing : Standing) (log more : List Dealing) :
    standing.after (log ++ more) = (standing.after log).bind fun s => s.after more :=
  List.foldlM_append

theorem after_cons {standing s' : Standing} {dealing : Dealing} {log : List Dealing}
    (h : standing.after (dealing :: log) = some s') :
    ∃ s, standing.next dealing = some s ∧ s.after log = some s' :=
  Option.bind_eq_some_iff.1 h

theorem after_split {standing s' : Standing} {dealing : Dealing} {log before rest : List Dealing}
    (h : standing.after log = some s') (hlog : log = before ++ dealing :: rest) :
    ∃ s₁ s₂, standing.after before = some s₁ ∧ s₁.next dealing = some s₂ ∧
      s₂.after rest = some s' := by
  rw [hlog, after_append] at h
  obtain ⟨s₁, hbefore, h⟩ := Option.bind_eq_some_iff.1 h
  obtain ⟨s₂, hnext, h⟩ := after_cons h
  exact ⟨s₁, s₂, hbefore, hnext, h⟩

variable {standing s' : Standing} {log : List Dealing}

theorem after_closed (h : closed.after log = some s') : log = [] := by
  cases log with
  | nil => rfl
  | cons dealing rest =>
    obtain ⟨_, hnext, -⟩ := after_cons h
    cases dealing <;> cases hnext

theorem after_spent (h : spent.after log = some s') :
    (log = [] ∧ s' = .spent) ∨ log = [.closed] := by
  cases log with
  | nil => exact .inl ⟨rfl, (Option.some.inj h).symm⟩
  | cons dealing rest =>
    obtain ⟨s, hnext, h⟩ := after_cons h
    cases dealing with
    | took msg => cases hnext
    | refused msg => cases hnext
    | closed =>
      obtain rfl := Option.some.inj hnext
      rw [after_closed h]
      exact .inr rfl

theorem spent_of_farewell {s : Standing} {msg : ServerMessage} (hmsg : msg.isFarewell = true)
    (h : standing.next (.took msg) = some s) : s = .spent := by
  cases standing with
  | spent | closed => cases h
  | waiting =>
    cases msg with
    | rejectConnect _ | error _ => exact (Option.some.inj h).symm
    | connected _ | data _ | pong => cases hmsg
  | connected =>
    cases msg with
    | error _ => exact (Option.some.inj h).symm
    | rejectConnect _ => cases h
    | connected _ | data _ | pong => cases hmsg

theorem frames_of_spent (h : spent.after log = some s') : frames log = [] := by
  obtain ⟨rfl, -⟩ | rfl := after_spent h <;> rfl

theorem after_connected (h : connected.after log = some s') :
    ∃ traffic, ∃ error : Option String, (∀ msg ∈ traffic, msg.isTraffic = true) ∧
      frames log = traffic ++ (error.map ServerMessage.error).toList := by
  induction log with
  | nil => exact ⟨[], none, nofun, rfl⟩
  | cons dealing rest ih =>
    obtain ⟨s, hnext, h⟩ := after_cons h
    have htraffic : ∀ msg, msg.isTraffic = true → dealing = .took msg → s = .connected →
        ∃ traffic, ∃ error : Option String, (∀ msg ∈ traffic, msg.isTraffic = true) ∧
          frames (dealing :: rest) = traffic ++ (error.map ServerMessage.error).toList := by
      rintro msg hmsg rfl rfl
      obtain ⟨traffic, error, hall, hrest⟩ := ih h
      exact ⟨msg :: traffic, error, List.forall_mem_cons.2 ⟨hmsg, hall⟩, congrArg (msg :: ·) hrest⟩
    cases dealing with
    | took msg =>
      cases msg with
      | data batch => exact htraffic _ rfl rfl (Option.some.inj hnext).symm
      | pong => exact htraffic _ rfl rfl (Option.some.inj hnext).symm
      | error message =>
        obtain rfl := Option.some.inj hnext
        exact ⟨[], some message, nofun, congrArg (_ :: ·) (frames_of_spent h)⟩
      | connected accepted => cases hnext
      | rejectConnect reason => cases hnext
    | refused msg =>
      obtain rfl : s = .spent := by
        cases msg with
        | connected _ | rejectConnect _ => cases hnext
        | data _ | pong | error _ => exact (Option.some.inj hnext).symm
      exact ⟨[], none, nofun, (frames_of_spent h : frames rest = [])⟩
    | closed =>
      obtain rfl := Option.some.inj hnext
      rw [after_closed h]
      exact ⟨[], none, nofun, rfl⟩

end Standing

inductive Conversation : List ServerMessage → Prop
  | rejected (pings : Nat) (reason : RejectReason) :
      Conversation (List.replicate pings .pong ++ [.rejectConnect reason])
  | failed (pings : Nat) (message : String) :
      Conversation (List.replicate pings .pong ++ [.error message])
  | served (pings : Nat) (accepted : Accepted) (traffic : List ServerMessage)
      (error : Option String) : (∀ msg ∈ traffic, msg.isTraffic = true) →
      Conversation (List.replicate pings .pong ++
        .connected accepted :: (traffic ++ (error.map ServerMessage.error).toList))

theorem Conversation.pong {whole : List ServerMessage} (h : Conversation whole) :
    Conversation (.pong :: whole) := by
  cases h with
  | rejected pings reason => exact .rejected (pings + 1) reason
  | failed pings message => exact .failed (pings + 1) message
  | served pings accepted traffic error ht => exact .served (pings + 1) accepted traffic error ht

/-- The dealings with a socket, as they are between two operations of a room. -/
structure Regular (log : List Dealing) : Prop where
  conversation : ∃ whole, Conversation whole ∧ frames log <+: whole
  once : ∀ before accepted after, log = before ++ .took (.connected accepted) :: after →
    ∀ other, .took (.connected other) ∉ before ++ after
  first : ∀ before batch after, log = before ++ .took (.data batch) :: after →
    ∃ accepted, .took (.connected accepted) ∈ before
  farewell : ∀ before msg after, msg.isFarewell = true → log = before ++ .took msg :: after →
    after = [.closed]
  ended : ∀ before after, log = before ++ .closed :: after → after = []

namespace Standing

variable {standing s' : Standing} {log : List Dealing}

theorem conversation_after (h : waiting.after log = some s') :
    ∃ whole, Conversation whole ∧ frames log <+: whole := by
  induction log with
  | nil => exact ⟨_, .failed 0 "", List.nil_prefix⟩
  | cons dealing rest ih =>
    obtain ⟨s, hnext, h⟩ := after_cons h
    cases dealing with
    | took msg =>
      cases msg with
      | pong =>
        obtain rfl := Option.some.inj hnext
        obtain ⟨whole, hwhole, hrest⟩ := ih h
        exact ⟨_, hwhole.pong, (List.prefix_cons_inj _).2 hrest⟩
      | connected accepted =>
        obtain rfl := Option.some.inj hnext
        obtain ⟨traffic, error, hall, hrest⟩ := after_connected h
        exact ⟨_, .served 0 accepted traffic error hall,
          (List.prefix_cons_inj _).2 (hrest ▸ List.prefix_refl _)⟩
      | rejectConnect reason =>
        obtain rfl := Option.some.inj hnext
        exact ⟨_, .rejected 0 reason, (List.prefix_cons_inj _).2 (frames_of_spent h ▸ List.nil_prefix)⟩
      | error message =>
        obtain rfl := Option.some.inj hnext
        exact ⟨_, .failed 0 message, (List.prefix_cons_inj _).2 (frames_of_spent h ▸ List.nil_prefix)⟩
      | data batch => cases hnext
    | refused msg =>
      by_cases hpong : msg = .pong
      · subst hpong
        obtain rfl := Option.some.inj hnext
        exact ih h
      · have hspent : s = .spent := by
          cases msg with
          | pong => exact absurd rfl hpong
          | data batch => cases hnext
          | _ => exact (Option.some.inj hnext).symm
        subst hspent
        exact ⟨_, .failed 0 "", frames_of_spent h ▸ List.nil_prefix⟩
    | closed =>
      obtain rfl := Option.some.inj hnext
      rw [after_closed h]
      exact ⟨_, .failed 0 "", List.nil_prefix⟩

theorem notMem_connected (h : connected.after log = some s') (accepted : Accepted) :
    .took (.connected accepted) ∉ log := fun hmem => by
  obtain ⟨traffic, error, hall, hframes⟩ := after_connected h
  have hframe : .connected accepted ∈ traffic ++ (error.map ServerMessage.error).toList :=
    hframes ▸ List.mem_filterMap.2 ⟨_, hmem, rfl⟩
  obtain ht | he := List.mem_append.1 hframe
  · cases hall _ ht
  · cases error <;> simp at he

theorem mem_connected (h : waiting.after log = some .connected) :
    ∃ accepted, .took (.connected accepted) ∈ log := by
  induction log with
  | nil => cases h
  | cons dealing rest ih =>
    obtain ⟨s, hnext, h⟩ := after_cons h
    cases s with
    | waiting => exact (ih h).imp fun _ => List.mem_cons_of_mem _
    | spent =>
      obtain ⟨-, he⟩ | rfl := after_spent h
      · cases he
      · cases h
    | closed =>
      obtain rfl := after_closed h
      cases h
    | connected =>
      cases dealing with
      | took msg =>
        cases msg with
        | connected accepted => exact ⟨accepted, List.mem_cons_self⟩
        | _ => cases hnext
      | refused msg => cases msg <;> cases hnext
      | closed => cases hnext

theorem mem_closed_iff (h : standing.after log = some s') (hs : standing ≠ .closed) :
    .closed ∈ log ↔ s' = .closed := by
  induction log generalizing standing with
  | nil =>
    obtain rfl := Option.some.inj h
    exact ⟨nofun, fun h => absurd h hs⟩
  | cons dealing rest ih =>
    obtain ⟨s, hnext, h⟩ := after_cons h
    by_cases hd : dealing = .closed
    · subst hd
      obtain rfl : s = .closed := by
        cases standing with
        | closed => exact absurd rfl hs
        | _ => exact (Option.some.inj hnext).symm
      obtain rfl := after_closed h
      exact ⟨fun _ => (Option.some.inj h).symm, fun _ => List.mem_cons_self⟩
    · have hopen : s ≠ .closed := by
        rintro rfl
        cases dealing with
        | closed => exact hd rfl
        | took msg => cases standing <;> cases msg <;> cases hnext
        | refused msg => cases standing <;> cases msg <;> cases hnext
      rw [List.mem_cons, ih h hopen]
      exact or_iff_right (Ne.symm hd)

theorem regular_after (h : waiting.after log = some s') (hs : s' ≠ .spent) : Regular log := by
  have honce : ∀ before accepted rest, log = before ++ .took (.connected accepted) :: rest →
      ∀ other, .took (.connected other) ∉ rest := by
    intro before accepted rest hlog
    obtain ⟨s₁, s₂, -, hnext, hrest⟩ := after_split h hlog
    cases s₁ with
    | waiting =>
      obtain rfl := Option.some.inj hnext
      exact notMem_connected hrest
    | _ => cases hnext
  refine ⟨conversation_after h, fun before accepted rest hlog other hmem => ?_,
    fun before batch rest hlog => ?_, fun before msg rest hmsg hlog => ?_, fun before rest hlog => ?_⟩
  · obtain hmem | hmem := List.mem_append.1 hmem
    · obtain ⟨first, second, rfl⟩ := List.append_of_mem hmem
      rw [List.append_assoc, List.cons_append] at hlog
      exact honce _ _ _ hlog accepted (List.mem_append_right _ List.mem_cons_self)
    · exact honce _ _ _ hlog other hmem
  · obtain ⟨s₁, s₂, hbefore, hnext, -⟩ := after_split h hlog
    cases s₁ with
    | connected => exact mem_connected hbefore
    | _ => cases hnext
  · obtain ⟨s₁, s₂, -, hnext, hrest⟩ := after_split h hlog
    obtain rfl := spent_of_farewell hmsg hnext
    obtain ⟨-, he⟩ | he := after_spent hrest
    · exact absurd he hs
    · exact he
  · obtain ⟨s₁, s₂, -, hnext, hrest⟩ := after_split h hlog
    obtain rfl : s₂ = .closed := by
      cases s₁ with
      | closed => cases hnext
      | _ => exact (Option.some.inj hnext).symm
    exact after_closed hrest

end Standing

end RoomSync
