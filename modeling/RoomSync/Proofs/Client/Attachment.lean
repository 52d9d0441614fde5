import RoomSync.Proofs.Client.Caller

namespace RoomSync

namespace Client

variable (c : Client) (i : Nat)

theorem current_send (msg : ClientMessage) : (c.send msg).1.current = c.current := by
  rw [send]
  split
  · rfl
  · split
    · split <;> rfl
    · rfl

theorem current_fold (connection : Connection) (msg : ServerMessage) :
    (c.fold i connection msg).current = c.current := by
  let c₁ : Client := { c with draft := (c.draft.fold msg).draft }
  have hcurrent : (if c.current = some i then c₁.handTo i (c.draft.fold msg).replies else c₁).current =
      c.current := by split <;> rfl
  unfold fold
  dsimp only
  generalize (if c.current = some i then c₁.handTo i _ else c₁) = c₂ at hcurrent ⊢
  cases msg with
  | connected accepted =>
    dsimp only
    split <;> exact hcurrent
  | data _ | rejectConnect _ | pong | error _ => exact hcurrent

theorem current_readEnd : (c.readEnd i).current = c.current := by
  rw [readEnd]
  split
  · rfl
  · split
    · rw [readerEnds]
      split <;> rfl
    · rfl

theorem current_write : (c.write i).1.current = c.current := by
  rw [write]
  split
  · rfl
  · split
    · split
      · rfl
      · split <;> rfl
    · rfl

end Client

def Occurrence.greets (i : Nat) : Occurrence → Bool
  | .hears j (.connected _) => i = j
  | _ => false

namespace Caller

def newest (c : Caller) : Occurrence → Option Nat
  | .getsThrough =>
    if c.core.dialing then some c.client.connections.length else c.client.current
  | .hangsUp => none
  | _ => c.client.current

theorem current_step (c : Caller) (o : Occurrence) : (c.step o).client.current = c.newest o := by
  cases o with
  | pushes mutations =>
    rw [step, Client.push]
    dsimp only
    split
    · exact Client.current_send ..
    · rfl
  | appears content =>
    rw [step, Client.setPresence]
    dsimp only
    split
    · exact Client.current_send ..
    · rfl
  | pings => exact c.client.current_send .ping
  | getsThrough =>
    obtain ⟨client, dialing⟩ := c
    cases dialing <;> rfl
  | getsNowhere =>
    rw [step]
    split <;> rfl
  | hears i msg =>
    rw [step, Client.hears]
    dsimp only
    cases c.client.connection? i with
    | none => rfl
    | some x =>
      dsimp only
      split
      · exact c.client.current_fold i x msg
      · rfl
  | losesTouch i => exact c.client.current_readEnd i
  | writes i => exact c.client.current_write i
  | dials | hangsUp | takesEvents | cannotWrite _ => rfl

end Caller

namespace Caller.Core

variable {k : Core}

/-- Only an accepted handshake on the connection that the client waits for makes it connected. -/
theorem state_step {o : Occurrence} (hs : (k.step o).state = .connected) : k.state = .connected ∨
    ∃ i, o.greets i = true ∧ k.generations[i]? = some k.generation := by
  cases o with
  | hears i msg =>
    rw [step, hears] at hs
    split at hs
    · rename_i g hl
      cases msg with
      | connected accepted =>
        dsimp only at hs
        split at hs
        · rename_i hg
          refine .inr ⟨i, decide_eq_true rfl, ?_⟩
          rw [generations, List.getElem?_map, hl, ← hg]
          rfl
        · exact .inl hs
      | data _ | rejectConnect _ | pong | error _ => exact .inl hs
    · exact .inl hs
  | losesTouch i =>
    rw [step, losesTouch] at hs
    split at hs
    · dsimp only at hs
      split at hs
      · cases hs
      · exact .inl hs
    · exact .inl hs
  | appears content =>
    rw [step] at hs
    split at hs <;> exact .inl hs
  | getsThrough =>
    rw [step] at hs
    split at hs <;> exact .inl hs
  | getsNowhere =>
    rw [step] at hs
    split at hs
    · cases hs
    · exact .inl hs
  | dials | hangsUp => cases hs
  | pushes _ | pings | takesEvents | writes _ | cannotWrite _ => exact .inl hs

theorem dialing_step {o : Occurrence} (hd : (k.step o).dialing = true) :
    k.dialing = true ∨ o = .dials := by
  cases o with
  | dials => exact .inr rfl
  | hears i msg =>
    rw [step] at hd
    obtain he | ⟨state, he⟩ := k.hears_cases i msg <;> rw [he] at hd <;> exact .inl hd
  | losesTouch i =>
    obtain ⟨state, links, he⟩ := k.losesTouch_cases i
    rw [step, he] at hd
    exact .inl hd
  | appears _ | getsThrough | getsNowhere =>
    rw [step] at hd
    split at hd <;> first | exact .inl hd | cases hd
  | hangsUp => cases hd
  | pushes _ | pings | takesEvents | writes _ | cannotWrite _ => exact .inl hd

end Caller.Core

namespace Caller

variable {c : Caller} {i : Nat} {o : Occurrence}

/-- The client waits for no other connection than the newest one, and is not connected while it
connects again. -/
structure Attached (c : Caller) : Prop where
  sound : c.core.Sound
  newest : ∀ i : Nat, c.core.generations[i]? = some c.core.generation → c.client.current = some i
  idle : c.core.dialing = true → c.core.state ≠ .connected

theorem attached_start (url documentId key : String) (schema : Schema) :
    (start url documentId key schema).Attached :=
  ⟨Core.sound_start url documentId key schema, nofun, nofun⟩

theorem Attached.newest_step (h : c.Attached)
    (hi : (c.core.step o).generations[i]? = some (c.core.step o).generation) :
    c.newest o = some i := by
  have hold : c.core.generations[i]? ≠ some (c.core.generation + 1) := fun hi =>
    Nat.not_succ_le_self _ (h.sound.bounded _ (List.mem_of_getElem? hi))
  cases o with
  | dials | hangsUp => exact absurd hi hold
  | getsThrough =>
    rw [Caller.newest]
    by_cases hd : c.core.dialing = true
    · rw [Core.generations_getsThrough hd, Core.step, if_pos hd] at hi
      have hlt : i < (c.core.generations ++ [c.core.generation]).length :=
        (List.getElem?_eq_some_iff.1 hi).1
      have hge : ¬i < c.core.generations.length := fun hlt => by
        rw [List.getElem?_append_left hlt] at hi
        exact Nat.lt_irrefl _ (h.sound.dialing hd _ (List.mem_of_getElem? hi))
      rw [List.length_append, List.length_singleton] at hlt
      rw [if_pos hd, ← c.core_length]
      exact congrArg some (by omega)
    · rw [Core.step, if_neg hd] at hi
      rw [if_neg hd]
      exact h.newest i hi
  | hears j msg =>
    refine h.newest i ?_
    obtain he | ⟨state, he⟩ := c.core.hears_cases j msg
    · rwa [Core.step, he] at hi
    · rwa [Core.step, he] at hi
  | losesTouch j =>
    refine h.newest i ?_
    obtain ⟨state, links, he⟩ := c.core.losesTouch_cases j
    rwa [Core.step, c.core.generations_losesTouch j, he] at hi
  | appears _ | getsNowhere =>
    refine h.newest i ?_
    rw [Core.step] at hi
    split at hi <;> exact hi
  | pushes _ | pings | takesEvents | writes _ | cannotWrite _ => exact h.newest i hi

theorem Attached.step (h : c.Attached) (o : Occurrence) : (c.step o).Attached := by
  have hcore := c.core_step o
  refine ⟨hcore ▸ h.sound.step o, fun i hi => ?_, fun hd hs => ?_⟩
  · rw [hcore] at hi
    rw [current_step]
    exact h.newest_step hi
  · rw [hcore] at hd hs
    obtain hd | rfl := Core.dialing_step hd
    · obtain hs | ⟨i, -, hi⟩ := Core.state_step hs
      · exact h.idle hd hs
      · exact Nat.lt_irrefl _ (h.sound.dialing hd _ (List.mem_of_getElem? hi))
    · cases hs

/-- The client keeps pushes back from a connection: it is not connected, or over another one. -/
def KeepsBack (c : Caller) (i : Nat) : Prop :=
  c.client.state = .connected → c.client.current ≠ some i

theorem Attached.keepsBack_step (h : c.Attached) (hback : c.KeepsBack i) (ho : o.greets i = false) :
    (c.step o).KeepsBack i := by
  intro hs
  have hs : (c.core.step o).state = .connected :=
    (congrArg Core.state (c.core_step o)).symm.trans hs
  rw [current_step]
  obtain hconnected | ⟨j, hj, hg⟩ := Core.state_step hs
  · unfold Caller.newest
    split
    · split
      · exact absurd hconnected (h.idle ‹_›)
      · exact hback hconnected
    · nofun
    · exact hback hconnected
  · cases o with
    | hears l msg =>
      intro hi
      have hi : c.client.current = some i := hi
      obtain rfl := Option.some.inj ((h.newest j hg).symm.trans hi)
      exact Bool.false_ne_true (ho.symm.trans hj)
    | _ => cases hj

end Caller

end RoomSync
