import RoomSync.Proofs.Outbox.Clocks
import RoomSync.Proofs.Room.Turn

namespace RoomSync

open Table

namespace Room

def outbox? (r : Room) (key : String) : Option Outbox := (r.connected? key).map Connected.outbox

theorem outbox?_of_waiting {r : Room} {key : String} {s : Session} {w : Waiting}
    (hs : r.session? key = some s) (hw : s.state = .awaitingConnect w) : r.outbox? key = none := by
  simp [outbox?, connected?, hs, Session.connected?, hw]

theorem connected?_congr {r r' : Room} {key : String} (h : r'.session? key = r.session? key) :
    r'.connected? key = r.connected? key := congrArg (Option.bind · Session.connected?) h

theorem outbox?_congr {r r' : Room} {key : String} (h : r'.session? key = r.session? key) :
    r'.outbox? key = r.outbox? key := congrArg (Option.map Connected.outbox) (connected?_congr h)

/-- Of every connected session, all up to the clock of the room has been put into the outbox. -/
def Current (r : Room) : Prop := ∀ key o, r.outbox? key = some o → o.UpTo r.clock

/-- The clock stays, and no outbox does more than go. -/
structure Trims (r r' : Room) : Prop where
  clock : r'.clock = r.clock
  outboxes : ∀ key o, r'.outbox? key = some o → r.outbox? key = some o

theorem Trims.refl (r : Room) : r.Trims r := ⟨rfl, fun _ _ h => h⟩

theorem Current.trims {r r' : Room} (h : r.Current) (ht : r.Trims r') : r'.Current :=
  fun key o ho => ht.clock ▸ h key o (ht.outboxes key o ho)

theorem trims_without (r : Room) (key : String) : r.Trims (r.without key) := by
  refine ⟨rfl, fun k o ho => ?_⟩
  by_cases hk : k = key
  · simp [outbox?, connected?, session?_without, hk] at ho
  · rwa [outbox?_congr ((r.session?_without key k).trans (if_neg hk))] at ho

theorem trims_seated {r : Room} {key : String} {s : Session} {w : Waiting}
    (hw : s.state = .awaitingConnect w) : r.Trims (r.seated key s) := by
  refine ⟨rfl, fun k o ho => ?_⟩
  by_cases hk : k = key
  · rw [hk, outbox?_of_waiting ((r.session?_seated key key s).trans (if_pos rfl)) hw] at ho
    cases ho
  · rwa [outbox?_congr ((r.session?_seated key k s).trans (if_neg hk))] at ho

theorem connected?_modifySession (r : Room) (key k : String) (f : Connected → Connected) :
    (r.modifySession key (·.mapConnected f)).connected? k =
      if k = key then (r.connected? k).map f else r.connected? k := by
  by_cases hk : k = key
  · subst hk
    rw [if_pos rfl, connected?, connected?, session?_modifySession, if_pos rfl]
    cases r.session? k with
    | none => rfl
    | some s =>
      obtain ⟨presenceId, info, state⟩ := s
      cases state <;> rfl
  · rw [if_neg hk, connected?_congr ((r.session?_modifySession key k _).trans (if_neg hk))]

theorem outbox?_modifySession (r : Room) (key k : String) (f : Connected → Connected) :
    (r.modifySession key (·.mapConnected f)).outbox? k =
      if k = key then (r.connected? k).map fun c => (f c).outbox else r.outbox? k := by
  rw [outbox?, connected?_modifySession]
  split
  · rw [Option.map_map]
    rfl
  · rfl

theorem trims_touch (r : Room) (key : String) (now : Nat) :
    r.Trims (r.modifySession key (·.touch now)) := by
  refine ⟨rfl, fun k o ho => ?_⟩
  have hmodify := r.outbox?_modifySession key k fun c => { c with lastInteraction := now }
  rw [show (r.modifySession key (·.touch now)).outbox? k = _ from hmodify] at ho
  split at ho
  · exact ho
  · exact ho

theorem outbox?_applyPush (r : Room) (own : Option RecordId) (push : Push) (key : String) :
    (r.applyPush own push).1.outbox? key = r.outbox? key :=
  outbox?_congr (congrArg (get? · key) (r.applyPush_frame own push).2)

theorem mem_connectedKeys_of_outbox? {r : Room} {key : String} {o : Outbox}
    (h : r.outbox? key = some o) : key ∈ r.connectedKeys := by
  obtain ⟨c, hc, -⟩ := Option.map_eq_some_iff.1 h
  obtain ⟨s, hs, hstate⟩ := connected?_eq_some.1 hc
  exact mem_connectedKeys.2 ⟨s, hs, by simp [Session.isConnected, Session.phase, hstate]⟩

end Room

namespace LiveRoom

open Room

variable {σ : Type} (l : LiveRoom σ)

theorem outbox?_setOutbox (key k : String) (o : Outbox) :
    (l.setOutbox key o).room.outbox? k =
      if k = key then (l.room.outbox? k).map fun _ => o else l.room.outbox? k := by
  refine (l.room.outbox?_modifySession key k _).trans ?_
  by_cases hk : k = key
  · rw [if_pos hk, if_pos hk, outbox?, Option.map_map]
    rfl
  · rw [if_neg hk, if_neg hk]

variable [Host σ]

theorem connected?_cancel (key k : String) (cause : CancelCause) (now : Nat) :
    (l.cancel key cause now).room.connected? k = if k = key then none else l.room.connected? k := by
  have hseat : ∀ s : Session, (∀ c, s.state ≠ .connected c) →
      (l.room.seated key s).connected? k = if k = key then none else l.room.connected? k := by
    intro s hno
    by_cases hk : k = key
    · subst hk
      rw [if_pos rfl]
      refine Option.eq_none_iff_forall_not_mem.2 fun c hc => ?_
      obtain ⟨t, ht, hstate⟩ := connected?_eq_some.1 hc
      rw [session?_seated, if_pos rfl] at ht
      exact hno c (Option.some.inj ht ▸ hstate)
    · rw [if_neg hk, connected?_congr ((l.room.session?_seated key k s).trans (if_neg hk))]
  cases hs : l.room.session? key with
  | none =>
    rw [cancel_of_none l cause now hs]
    by_cases hk : k = key
    · simp [connected?, hk, hs]
    · rw [if_neg hk]
  | some s =>
    by_cases hc : ∃ c, s.state = .connected c
    · obtain ⟨c, hc⟩ := hc
      rw [cancel_of_connected l cause now hs hc]
      exact hseat _ fun c h => by cases h
    · rw [cancel_of_not_connected l cause now hs fun c h => hc ⟨c, h⟩]
      exact hseat s fun c h => hc ⟨c, h⟩

theorem outbox?_cancel (key k : String) (cause : CancelCause) (now : Nat) :
    (l.cancel key cause now).room.outbox? k = if k = key then none else l.room.outbox? k := by
  rw [outbox?, connected?_cancel]
  split <;> rfl

theorem trims_cancel (key : String) (cause : CancelCause) (now : Nat) :
    l.room.Trims (l.cancel key cause now).room := by
  refine ⟨(l.steady_cancel key cause now).clock, fun k o ho => ?_⟩
  rw [outbox?_cancel] at ho
  split at ho
  · cases ho
  · exact ho

theorem trims_sendFrame (key : String) (socket : SocketId) (msg : ServerMessage) (now : Nat) :
    l.room.Trims (l.sendFrame key socket msg now).room := by
  obtain ⟨-, he⟩ | ⟨-, cause, he⟩ :=
    @sendFrame_cases _ l _ key now socket msg <;> rw [he]
  · exact .refl _
  · exact trims_cancel ⟨l.room, (Host.send l.host socket msg).1⟩ key cause now

theorem trims_pong (key : String) (now : Nat) : l.room.Trims (l.pong key now).room := by
  unfold pong
  split
  · exact l.trims_sendFrame key _ .pong now
  · exact .refl _

theorem trims_succeed (key : String) (socket : SocketId) (info : Content) (now : Nat) :
    l.room.Trims (l.succeed key socket info now).room := by
  unfold succeed
  split
  · exact trims_seated rfl
  · rename_i old _
    cases old.socket? <;> exact trims_seated rfl

variable {l} {key k : String} {now : Nat} {o o' : Outbox}

omit [Host σ] in
theorem outbox?_setOutbox_cases {outbox : Outbox} (hkey : l.room.outbox? key = some o)
    (h : (l.setOutbox key outbox).room.outbox? k = some o') :
    (k ≠ key ∧ l.room.outbox? k = some o') ∨ (k = key ∧ o' = outbox) := by
  rw [outbox?_setOutbox] at h
  by_cases hk : k = key
  · rw [if_pos hk, hk, hkey] at h
    exact .inr ⟨hk, (Option.some.inj h).symm⟩
  · rw [if_neg hk] at h
    exact .inl ⟨hk, h⟩

theorem outbox?_sendData {msg : DataMessage}
    (h : (l.sendData key msg now).room.outbox? k = some o') :
    (k ≠ key ∧ l.room.outbox? k = some o') ∨
      (k = key ∧ ∃ o, l.room.outbox? key = some o ∧ o.Admits msg now l.room.config o') := by
  rw [sendData] at h
  cases hc : l.room.connected? key with
  | none =>
    rw [hc] at h
    refine .inl ⟨?_, h⟩
    rintro rfl
    simp [outbox?, hc] at h
  | some c =>
    rw [hc] at h
    have hkey : l.room.outbox? key = some c.outbox := by rw [outbox?, hc]; rfl
    have htaken (hp : (c.outbox.enqueue msg now l.room.config).2 ≠ .overflow)
        (ho : (l.setOutbox key (c.outbox.enqueue msg now l.room.config).1).room.outbox? k =
          some o') :
        (k ≠ key ∧ l.room.outbox? k = some o') ∨
          (k = key ∧ ∃ o, l.room.outbox? key = some o ∧ o.Admits msg now l.room.config o') :=
      (outbox?_setOutbox_cases hkey ho).imp_right fun ⟨hk, he⟩ => ⟨hk, c.outbox, hkey, he, hp⟩
    dsimp only at h
    split at h
    · rename_i batch hp
      exact htaken (by rw [hp]; nofun) ((trims_sendFrame ..).outboxes k o' h)
    · rename_i hp
      exact htaken (by rw [hp]; nofun) h
    · rw [outbox?_cancel] at h
      split at h
      · cases h
      · rename_i hk
        rw [outbox?_setOutbox, if_neg hk] at h
        exact .inl ⟨hk, h⟩

theorem outbox?_sendPatch {changes : Changes}
    (h : (sendPatch changes now l key).room.outbox? k = some o') :
    (k ≠ key ∧ l.room.outbox? k = some o') ∨
      (k = key ∧ ∃ o, l.room.outbox? key = some o ∧
        o.Admits (.patch (o.patchTo l.room.clock changes)) now l.room.config o') := by
  rw [sendPatch] at h
  cases hc : l.room.connected? key with
  | none =>
    rw [hc] at h
    refine .inl ⟨?_, h⟩
    rintro rfl
    simp [outbox?, hc] at h
  | some c =>
    rw [hc] at h
    have hkey : l.room.outbox? key = some c.outbox := by rw [outbox?, hc]; rfl
    obtain hother | ⟨hk, o, ho, hadmits⟩ := outbox?_sendData h
    · exact .inl hother
    · obtain rfl := Option.some.inj (hkey.symm.trans ho)
      exact .inr ⟨hk, c.outbox, hkey, hadmits⟩

omit [Host σ] in
theorem outbox?_guest {s : Session} {waiting : Waiting} {request : ConnectRequest}
    (h : (l.room.seated key (l.guest s waiting request now)).outbox? k = some o') :
    (k ≠ key ∧ l.room.outbox? k = some o') ∨ (k = key ∧ o' = .start l.room.clock now) := by
  by_cases hk : k = key
  · subst hk
    obtain ⟨c, hc, rfl⟩ := Option.map_eq_some_iff.1 h
    obtain ⟨t, ht, hstate⟩ := connected?_eq_some.1 hc
    rw [session?_seated, if_pos rfl] at ht
    obtain rfl := Option.some.inj ht
    obtain rfl := SessionState.connected.inj hstate
    exact .inr ⟨rfl, rfl⟩
  · rw [outbox?_congr ((session?_seated _ key k _).trans (if_neg hk))] at h
    exact .inl ⟨hk, h⟩

theorem outbox?_welcome {s : Session} {waiting : Waiting} {request : ConnectRequest}
    (h : (l.welcome key s waiting request now).room.outbox? k = some o') :
    (k ≠ key ∧ l.room.outbox? k = some o') ∨ (k = key ∧ o' = .start l.room.clock now) :=
  outbox?_guest ((trims_sendFrame ..).outboxes k o' h)

theorem outbox?_flushSession (h : (flushSession now l key).room.outbox? k = some o') :
    (k ≠ key ∧ l.room.outbox? k = some o') ∨
      (k = key ∧ ∃ o, l.room.outbox? key = some o ∧
        o' = (o.flushDue now l.room.config.debounce).1) := by
  rw [flushSession] at h
  cases hc : l.room.connected? key with
  | none =>
    rw [hc] at h
    refine .inl ⟨?_, h⟩
    rintro rfl
    simp [outbox?, hc] at h
  | some c =>
    rw [hc] at h
    have hkey : l.room.outbox? key = some c.outbox := by rw [outbox?, hc]; rfl
    have ho : (l.setOutbox key (c.outbox.flushDue now l.room.config.debounce).1).room.outbox? k =
        some o' := by
      dsimp only at h
      split at h
      · exact h
      · exact (trims_sendFrame ..).outboxes k o' h
    exact (outbox?_setOutbox_cases hkey ho).imp_right fun ⟨hk, he⟩ => ⟨hk, c.outbox, hkey, he⟩

end LiveRoom

end RoomSync
