import RoomSync.Proofs.Room.Journal
import RoomSync.Proofs.Room.Outboxes
import RoomSync.Proofs.Room.Run

namespace RoomSync

open Table Room

/-- Something that goes wrong between the room and a connected session. -/
inductive Mishap where
  /-- Too much was held back for it. -/
  | overflow
  /-- Its socket did not take a message. -/
  | refused (socket : SocketId) (msg : ServerMessage)
deriving DecidableEq

/-- What is done with an outbox: a message is put into it, or what is due is taken out. -/
inductive OutboxUse where
  | post (msg : DataMessage)
  | flush

def Outbox.used (o : Outbox) (use : OutboxUse) (now : Nat) (config : Config) : Outbox × Posting :=
  match use with
  | .post msg => o.enqueue msg now config
  | .flush =>
    let (o, due) := o.flushDue now config.debounce
    (o, due.elim .held .send)

/-- The use of the outbox of a session, with the outbox as it was before. -/
structure OutboxEvent where
  key : String
  socket : SocketId
  outbox : Outbox
  use : OutboxUse
  now : Nat
  mishap? : Option Mishap

namespace OutboxEvent

def outcome (event : OutboxEvent) (config : Config) : Outbox × Posting :=
  event.outbox.used event.use event.now config

/-- What the socket of the session gets to see. -/
def dealing? (event : OutboxEvent) (config : Config) : Option (SocketId × Dealing) :=
  match (event.outcome config).2 with
  | .send batch =>
    some (event.socket, if event.mishap? = none then .took (.data batch) else .refused (.data batch))
  | .held | .overflow => none

end OutboxEvent

def Dealing.isData : Dealing → Bool
  | .took (.data _) | .refused (.data _) => true
  | _ => false

def Journal.data {σ : Type} (j : Journal σ) : List (SocketId × Dealing) :=
  j.entries.filter fun entry => entry.2.isData

structure Traced (σ : Type) where
  live : LiveRoom σ
  log : List OutboxEvent

namespace LiveRoom

variable {σ : Type} [Host σ]

/-- Hand over what an outbox lets go, or learn what goes wrong, in which case the session is
cancelled. -/
def handOver (l : LiveRoom σ) (key : String) (socket : SocketId) (posting : Posting) (now : Nat) :
    LiveRoom σ × Option Mishap :=
  match posting with
  | .held => (l, none)
  | .overflow => (l.cancel key .slowConsumer now, some .overflow)
  | .send batch =>
    match Host.send l.host socket (.data batch) with
    | (host, none) => ({ l with host }, none)
    | (host, some .full) =>
      (cancel { l with host } key .slowConsumer now, some (.refused socket (.data batch)))
    | (host, some .closed) =>
      (cancel { l with host } key .socketClosed now, some (.refused socket (.data batch)))

/-- Use the outbox of a session, if it is connected. What is done may depend on the outbox. -/
def useOutbox (use : Outbox → OutboxUse) (now : Nat) (l : LiveRoom σ) (key : String) : Traced σ :=
  match l.room.connected? key with
  | none => ⟨l, []⟩
  | some c =>
    let (outbox, posting) := c.outbox.used (use c.outbox) now l.room.config
    let (l, mishap?) := (l.setOutbox key outbox).handOver key c.socket posting now
    ⟨l, [⟨key, c.socket, c.outbox, use c.outbox, now, mishap?⟩]⟩

def tracedPatch (changes : Changes) (now : Nat) (l : LiveRoom σ) (key : String) : Traced σ :=
  useOutbox (fun o => .post (.patch (o.patchTo l.room.clock changes))) now l key

/-- What is done in a room apart from the uses of outboxes: an outbox goes, a session that was not
connected gets an empty one at the clock that its socket is told, and sockets are told notices or
closed. -/
inductive Aside : LiveRoom σ → LiveRoom σ → Prop
  | trims {l : LiveRoom σ} {r : Room} : r.config = l.room.config →
      (∀ key o, r.outbox? key = some o → l.room.outbox? key = some o) → Aside l ⟨r, l.host⟩
  | admits {l : LiveRoom σ} {r : Room} {key : String} {c : Connected} {accepted : Accepted}
      (now : Nat) : r.config = l.room.config → l.room.connected? key = none →
      r.connected? key = some c → accepted.clock = r.clock → c.outbox = .start accepted.clock now →
      (∀ k o, k ≠ key → r.outbox? k = some o → l.room.outbox? k = some o) →
      Aside l (tell ⟨r, l.host⟩ c.socket (.connected accepted))
  | tells (l : LiveRoom σ) (socket : SocketId) {msg : ServerMessage} :
      msg.isNotice = true → Aside l (l.tell socket msg)
  | closes (l : LiveRoom σ) (socket : SocketId) : Aside l (l.close socket)

/-- A way from one state of a room to another one, with every use of an outbox on the way. -/
inductive Course : List OutboxEvent → LiveRoom σ → LiveRoom σ → Prop
  | refl (l : LiveRoom σ) : Course [] l l
  | uses {log : List OutboxEvent} {l l' : LiveRoom σ} (use : Outbox → OutboxUse) (now : Nat)
      (key : String) : Course log l l' →
      Course (log ++ (useOutbox use now l' key).log) l (useOutbox use now l' key).live
  | aside {log : List OutboxEvent} {l l' l'' : LiveRoom σ} :
      Course log l l' → Aside l' l'' → Course log l l''

/-- What the events of one session make of its outbox, where each finds the outbox as the one before
has left it. -/
inductive Accounts (config : Config) (key : String) : Outbox → List OutboxEvent → Outbox → Prop
  | done (o : Outbox) : Accounts config key o [] o
  | other {o o' : Outbox} {event : OutboxEvent} {rest : List OutboxEvent} :
      event.key ≠ key → Accounts config key o rest o' → Accounts config key o (event :: rest) o'
  | used {o' : Outbox} {event : OutboxEvent} {rest : List OutboxEvent} :
      event.key = key → Accounts config key (event.outcome config).1 rest o' →
      Accounts config key event.outbox (event :: rest) o'

/-- From the time that the session was let in, with an empty outbox, a log accounts for what its
outbox is now. -/
def Accounted (config : Config) (key : String) (log : List OutboxEvent) (o : Outbox) : Prop :=
  ∃ earlier since clock now, log = earlier ++ since ∧
    Accounts config key (.start clock now) since o

variable (l : LiveRoom σ)

theorem handOver_send (key : String) (socket : SocketId) (batch : List DataMessage) (now : Nat) :
    (l.handOver key socket (.send batch) now).1 = l.sendFrame key socket (.data batch) now := by
  rw [handOver, sendFrame]
  obtain ⟨host, _ | _ | _⟩ := Host.send l.host socket (.data batch) <;> rfl

/-- The code puts messages into outboxes by nothing but their use. -/
theorem live_post (key : String) (msg : DataMessage) (now : Nat) :
    (useOutbox (fun _ => .post msg) now l key).live = l.sendData key msg now := by
  rw [useOutbox, sendData]
  cases l.room.connected? key with
  | none => rfl
  | some c =>
    dsimp only [Outbox.used]
    generalize c.outbox.enqueue msg now l.room.config = answer
    obtain ⟨outbox, batch | _ | _⟩ := answer
    · exact handOver_send ..
    · rfl
    · rfl

theorem live_tracedPatch (changes : Changes) (now : Nat) (key : String) :
    (tracedPatch changes now l key).live = sendPatch changes now l key := by
  have hpost (msg : DataMessage) := l.live_post key msg now
  simp only [useOutbox] at hpost
  rw [tracedPatch, useOutbox, sendPatch]
  cases hc : l.room.connected? key with
  | none => rfl
  | some c =>
    rw [hc] at hpost
    exact hpost _

theorem live_flush (key : String) (now : Nat) :
    (useOutbox (fun _ => .flush) now l key).live = flushSession now l key := by
  rw [useOutbox, flushSession]
  cases l.room.connected? key with
  | none => rfl
  | some c =>
    dsimp only [Outbox.used]
    generalize c.outbox.flushDue now l.room.config.debounce = answer
    obtain ⟨outbox, _ | batch⟩ := answer
    · rfl
    · exact handOver_send ..

theorem handOver_cases (key : String) (socket : SocketId) (posting : Posting) (now : Nat) :
    (∃ host, l.handOver key socket posting now = (⟨l.room, host⟩, none)) ∨
      ∃ mishap host cause, cause ≠ .idleTimeout ∧
        l.handOver key socket posting now = (cancel ⟨l.room, host⟩ key cause now, some mishap) := by
  cases posting with
  | held => exact .inl ⟨l.host, rfl⟩
  | overflow => exact .inr ⟨.overflow, l.host, .slowConsumer, by decide, rfl⟩
  | send batch =>
    rw [handOver]
    obtain ⟨host, _ | _ | _⟩ := Host.send l.host socket (.data batch)
    · exact .inl ⟨host, rfl⟩
    · exact .inr ⟨_, host, .socketClosed, by decide, rfl⟩
    · exact .inr ⟨_, host, .slowConsumer, by decide, rfl⟩

variable {l} {l' l'' : LiveRoom σ} {use : Outbox → OutboxUse} {now : Nat} {key k : String}
  {log new : List OutboxEvent} {o o' : Outbox}

theorem useOutbox_of_none (hc : l.room.connected? key = none) : useOutbox use now l key = ⟨l, []⟩ := by
  rw [useOutbox, hc]

theorem useOutbox_of_connected {c : Connected} (hc : l.room.connected? key = some c)
    (use : Outbox → OutboxUse) (now : Nat) :
    ∃ outbox posting live mishap?,
      c.outbox.used (use c.outbox) now l.room.config = (outbox, posting) ∧
      (l.setOutbox key outbox).handOver key c.socket posting now = (live, mishap?) ∧
      useOutbox use now l key =
        ⟨live, [⟨key, c.socket, c.outbox, use c.outbox, now, mishap?⟩]⟩ := by
  cases hused : c.outbox.used (use c.outbox) now l.room.config with
  | mk outbox posting =>
    cases hhand : (l.setOutbox key outbox).handOver key c.socket posting now with
    | mk live mishap? =>
      refine ⟨outbox, posting, live, mishap?, rfl, hhand, ?_⟩
      simp only [useOutbox, hc, hused, hhand]

/-- Either the session keeps its connection, with the outbox that the use leaves, or it is
cancelled. -/
theorem useOutbox_cases {c : Connected} (hc : l.room.connected? key = some c)
    (use : Outbox → OutboxUse) (now : Nat) :
    ∃ outbox mishap? host,
      (c.outbox.used (use c.outbox) now l.room.config).1 = outbox ∧
      (useOutbox use now l key).log = [⟨key, c.socket, c.outbox, use c.outbox, now, mishap?⟩] ∧
      ((mishap? = none ∧ (useOutbox use now l key).live = ⟨(l.setOutbox key outbox).room, host⟩) ∨
        ∃ mishap cause, cause ≠ .idleTimeout ∧ mishap? = some mishap ∧
          (useOutbox use now l key).live =
            cancel ⟨(l.setOutbox key outbox).room, host⟩ key cause now) := by
  obtain ⟨outbox, posting, live, mishap?, hused, hhand, he⟩ := useOutbox_of_connected hc use now
  rw [he]
  obtain ⟨host, hout⟩ | ⟨mishap, host, cause, hcause, hcancel⟩ :=
    (l.setOutbox key outbox).handOver_cases key c.socket posting now
  · obtain ⟨rfl, rfl⟩ := Prod.mk.inj (hhand.symm.trans hout)
    exact ⟨outbox, none, host, congrArg Prod.fst hused, rfl, .inl ⟨rfl, rfl⟩⟩
  · obtain ⟨rfl, rfl⟩ := Prod.mk.inj (hhand.symm.trans hcancel)
    exact ⟨outbox, some mishap, host, congrArg Prod.fst hused, rfl,
      .inr ⟨mishap, cause, hcause, rfl, rfl⟩⟩

theorem config_useOutbox : (useOutbox use now l key).live.room.config = l.room.config := by
  cases hc : l.room.connected? key with
  | none => rw [useOutbox_of_none hc]
  | some c =>
    obtain ⟨outbox, -, host, -, -, ⟨-, he⟩ | ⟨-, cause, -, -, he⟩⟩ := useOutbox_cases hc use now <;>
      rw [he]
    · rfl
    · exact (steady_cancel ⟨(l.setOutbox key outbox).room, host⟩ key cause now).config

theorem accounts_useOutbox (ho : (useOutbox use now l key).live.room.outbox? k = some o') :
    ∃ o, l.room.outbox? k = some o ∧
      Accounts l.room.config k o (useOutbox use now l key).log o' := by
  cases hc : l.room.connected? key with
  | none =>
    rw [useOutbox_of_none hc] at ho ⊢
    exact ⟨o', ho, .done o'⟩
  | some c =>
    have hkey : l.room.outbox? key = some c.outbox := by rw [outbox?, hc]; rfl
    obtain ⟨outbox, mishap?, host, hused, hlog, ⟨-, he⟩ | ⟨-, cause, -, -, he⟩⟩ :=
      useOutbox_cases hc use now <;> rw [he] at ho <;> rw [hlog]
    · obtain ⟨hk, ho⟩ | ⟨rfl, rfl⟩ := outbox?_setOutbox_cases hkey ho
      · exact ⟨o', ho, .other hk.symm (.done o')⟩
      · let event : OutboxEvent := ⟨k, c.socket, c.outbox, use c.outbox, now, mishap?⟩
        have hevent : Accounts l.room.config k event.outbox [event] o' := by
          refine .used rfl ?_
          rw [OutboxEvent.outcome, hused]
          exact .done o'
        exact ⟨c.outbox, hkey, hevent⟩
    · rw [outbox?_cancel] at ho
      split at ho
      · cases ho
      · rename_i hk
        rw [outbox?_setOutbox, if_neg hk] at ho
        exact ⟨o', ho, .other (Ne.symm hk) (.done o')⟩

theorem Accounts.append {config : Config} {o o' o'' : Outbox} (h : Accounts config k o log o')
    (h' : Accounts config k o' new o'') : Accounts config k o (log ++ new) o'' := by
  induction h with
  | done => exact h'
  | other hkey _ ih => exact .other hkey (ih h')
  | used hkey _ ih => exact .used hkey (ih h')

theorem Aside.config (h : Aside l l') : l'.room.config = l.room.config := by
  cases h with
  | trims hconfig => exact hconfig
  | admits _ hconfig => exact hconfig
  | tells => rfl
  | closes => rfl

namespace Course

theorem trans (h : Course log l l') (h' : Course new l' l'') : Course (log ++ new) l l'' := by
  induction h' with
  | refl => rwa [List.append_nil]
  | uses use now key _ ih =>
    rw [← List.append_assoc]
    exact (ih h).uses use now key
  | aside _ haside ih => exact (ih h).aside haside

theorem config (h : Course log l l') : l'.room.config = l.room.config := by
  induction h with
  | refl => rfl
  | uses _ _ _ _ ih => exact config_useOutbox.trans ih
  | aside _ haside ih => exact haside.config.trans ih

/-- What goes into an outbox or comes out of it is in the log, and nothing else is. -/
theorem accounted (h : Course log l l') (hnone : ∀ k, l.room.outbox? k = none)
    (ho : l'.room.outbox? k = some o') : Accounted l.room.config k log o' := by
  induction h generalizing o' with
  | refl l =>
    rw [hnone] at ho
    cases ho
  | uses use now key hcourse ih =>
    obtain ⟨o, hbefore, hnew⟩ := accounts_useOutbox ho
    obtain ⟨earlier, since, clock, entry, rfl, hsince⟩ := ih hnone hbefore
    rw [hcourse.config] at hnew
    exact ⟨earlier, _, clock, entry, List.append_assoc .., hsince.append hnew⟩
  | @aside log l _ _ hcourse haside ih =>
    cases haside with
    | trims _ hsame => exact ih hnone (hsame k o' ho)
    | @admits _ key c accepted now _ _ hc _ hstart hsame =>
      by_cases hk : k = key
      · obtain ⟨c', hc', rfl⟩ := Option.map_eq_some_iff.1 ho
        obtain rfl := Option.some.inj ((hk ▸ hc').symm.trans hc)
        refine ⟨log, [], accepted.clock, now, (List.append_nil _).symm, ?_⟩
        rw [hstart]
        exact .done _
      · exact ih hnone (hsame k o' hk ho)
    | tells => exact ih hnone ho
    | closes => exact ih hnone ho

end Course

section
variable {l l' : LiveRoom (Journal σ)}

theorem data_close (j : Journal σ) (socket : SocketId) : (Host.close j socket).data = j.data :=
  (List.filter_append ..).trans (List.append_nil _)

theorem data_cancel (l : LiveRoom (Journal σ)) (key : String) (cause : CancelCause) (now : Nat) :
    (l.cancel key cause now).host.data = l.host.data := by
  rw [cancel]
  cases l.room.session? key with
  | none => rfl
  | some s =>
    dsimp only [Session.cancel]
    split
    · exact data_close ..
    · rfl

theorem data_tell (l : LiveRoom (Journal σ)) (socket : SocketId) {msg : ServerMessage}
    (hmsg : ∀ batch, msg ≠ .data batch) : (l.tell socket msg).host.data = l.host.data := by
  change Journal.data (Host.send l.host socket msg).1 = l.host.data
  rw [Journal.data, l.host.entries_send, List.filter_append]
  refine (congrArg (l.host.data ++ ·) ?_).trans (List.append_nil _)
  cases msg with
  | data batch => exact absurd rfl (hmsg batch)
  | _ => split <;> rfl

theorem data_handOver (event : OutboxEvent) {config : Config}
    (h : (l.handOver event.key event.socket (event.outcome config).2 event.now) =
      (l', event.mishap?)) :
    l'.host.data = l.host.data ++ (event.dealing? config).toList := by
  rw [OutboxEvent.dealing?]
  cases hposting : (event.outcome config).2 with
  | held =>
    rw [hposting] at h
    obtain ⟨rfl, -⟩ := Prod.mk.inj h
    exact (List.append_nil _).symm
  | overflow =>
    rw [hposting] at h
    obtain ⟨rfl, -⟩ := Prod.mk.inj h
    exact (data_cancel ..).trans (List.append_nil _).symm
  | send batch =>
    have hentries := l.host.entries_send event.socket (.data batch)
    rw [hposting, handOver] at h
    cases hsend : Host.send l.host event.socket (.data batch) with
    | mk host error =>
      rw [hsend] at h hentries
      have hdata : host.data = l.host.data ++ [(event.socket,
          if error = none then .took (.data batch) else .refused (.data batch))] := by
        rw [Journal.data, hentries, List.filter_append]
        cases error <;> rfl
      obtain _ | _ | _ := error <;> obtain ⟨rfl, hmishap⟩ := Prod.mk.inj h <;> rw [← hmishap]
      · exact hdata
      · exact (data_cancel ..).trans hdata
      · exact (data_cancel ..).trans hdata

theorem data_useOutbox : (useOutbox use now l key).live.host.data = l.host.data ++
    (useOutbox use now l key).log.filterMap (·.dealing? l.room.config) := by
  cases hc : l.room.connected? key with
  | none =>
    rw [useOutbox_of_none hc]
    exact (List.append_nil _).symm
  | some c =>
    obtain ⟨outbox, posting, live, mishap?, hused, hhand, he⟩ :=
      useOutbox_of_connected hc use now
    let event : OutboxEvent := ⟨key, c.socket, c.outbox, use c.outbox, now, mishap?⟩
    have houtcome : (event.outcome l.room.config).2 = posting := congrArg Prod.snd hused
    rw [← houtcome] at hhand
    rw [he]
    refine (data_handOver event hhand).trans ?_
    rw [List.filterMap_cons, List.filterMap_nil]
    cases event.dealing? l.room.config <;> rfl

theorem Course.data (h : Course log l l') :
    l'.host.data = l.host.data ++ log.filterMap (·.dealing? l.room.config) := by
  induction h with
  | refl => exact (List.append_nil _).symm
  | uses use now key hcourse ih =>
    rw [data_useOutbox, ih, hcourse.config, List.filterMap_append, List.append_assoc]
  | aside hcourse haside ih =>
    rw [← ih]
    cases haside with
    | trims => rfl
    | admits =>
      refine data_tell _ _ fun batch h => ?_
      cases h
    | tells socket hmsg =>
      refine data_tell _ socket fun batch h => ?_
      rw [h] at hmsg
      cases hmsg
    | closes socket => exact data_close ..

end

end LiveRoom

end RoomSync
