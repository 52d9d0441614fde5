import RoomSync.Proofs.Client.Caller

namespace RoomSync

namespace Client

variable (c : Client) (i j : Nat)

def queue : List ClientMessage := (c.connection? i).elim [] Connection.outgoing

def reads : Bool := (c.connection? i).any Connection.reading

def Feeds : Prop := c.current = some i ∧ (c.connection? i).any Connection.writing = true

instance : Decidable (c.Feeds i) := inferInstanceAs (Decidable (_ ∧ _))

theorem connection?_modifyConnection (f : Connection → Connection) :
    (c.modifyConnection j f).connection? i =
      if j = i then (c.connection? i).map f else c.connection? i := by
  refine (List.getElem?_modify ..).trans ?_
  rw [connection?]
  split
  · rfl
  · cases c.connections[i]? <;> rfl

theorem queue_modifyConnection {f : Connection → Connection}
    (hf : ∀ x, (f x).outgoing = x.outgoing) : (c.modifyConnection j f).queue i = c.queue i := by
  rw [queue, queue, connection?_modifyConnection]
  split
  · cases c.connection? i with
    | none => rfl
    | some x => exact hf x
  · rfl

theorem queue_handTo (hi : c.current = some j) (messages : List ClientMessage) :
    (c.handTo j messages).queue i = c.queue i ++ if c.Feeds i then messages else [] := by
  rw [handTo, queue, queue, connection?_modifyConnection]
  by_cases hj : j = i
  · subst hj
    cases hc : c.connection? j with
    | none => simp [Feeds, hc]
    | some x => cases hw : x.writing <;> simp [Feeds, hc, hi, hw]
  · have hfeeds : ¬c.Feeds i := fun h => hj (Option.some.inj (hi.symm.trans h.1))
    rw [if_neg hj, if_neg hfeeds, List.append_nil]

theorem queue_send (msg : ClientMessage) :
    (c.send msg).1.queue i = c.queue i ++ if c.Feeds i then [msg] else [] := by
  have hnone : ∀ hfeeds : ¬c.Feeds i, c.queue i = c.queue i ++ if c.Feeds i then [msg] else [] :=
    fun hfeeds => by rw [if_neg hfeeds, List.append_nil]
  rw [send]
  cases hi : c.current with
  | none => exact hnone fun h => Option.some_ne_none i (h.1.symm.trans hi)
  | some j =>
    have hj : ∀ h : c.Feeds i, j = i := fun h => Option.some.inj (hi.symm.trans h.1)
    dsimp only
    cases hc : c.connection? j with
    | none => exact hnone fun h => by simp [Feeds, ← hj h, hc] at h
    | some x =>
      dsimp only
      split
      · exact c.queue_handTo i j hi [msg]
      · exact hnone fun h => by simp_all [Feeds, ← hj h]

theorem queue_push (mutations : List Mutation) : (c.push mutations).1.queue i =
    c.queue i ++ if c.state = .connected ∧ c.Feeds i then
      [c.draft.pushMessage ⟨c.draft.nextPushId, mutations⟩] else [] := by
  rw [push]
  dsimp only
  by_cases hs : c.state = .connected
  · simp only [hs, if_true, true_and]
    exact queue_send ..
  · simp only [hs, if_false, false_and, List.append_nil]
    rfl

theorem queue_setPresence (content : Content) : (c.setPresence content).1.queue i =
    c.queue i ++ if c.state = .connected ∧ c.Feeds i then
      [.push ⟨c.draft.sessionKey, c.draft.nextPushId, [], some content⟩] else [] := by
  rw [setPresence]
  by_cases hs : c.state = .connected
  · simp only [hs, if_true, true_and]
    exact queue_send ..
  · simp only [hs, if_false, false_and, List.append_nil]

theorem queue_fold (connection : Connection) (msg : ServerMessage) :
    (c.fold j connection msg).queue i =
      c.queue i ++ if j = i ∧ c.Feeds i then (c.draft.fold msg).replies else [] := by
  let c₁ : Client := { c with draft := (c.draft.fold msg).draft }
  have hqueue : (if c.current = some j then c₁.handTo j (c.draft.fold msg).replies else c₁).queue i =
      c.queue i ++ if j = i ∧ c.Feeds i then (c.draft.fold msg).replies else [] := by
    by_cases hj : c.current = some j
    · rw [if_pos hj]
      have hiff : c.Feeds i ↔ j = i ∧ c.Feeds i :=
        (and_iff_right_of_imp fun h => Option.some.inj (hj.symm.trans h.1)).symm
      simp only [← hiff]
      exact c₁.queue_handTo i j hj _
    · have hfeeds : ¬(j = i ∧ c.Feeds i) := fun h => hj (h.1 ▸ h.2.1)
      rw [if_neg hj, if_neg hfeeds, List.append_nil]
      rfl
  unfold fold
  dsimp only
  generalize (if c.current = some j then c₁.handTo j _ else c₁) = c₂ at hqueue ⊢
  cases msg with
  | connected accepted =>
    dsimp only
    split <;> exact hqueue
  | data _ | rejectConnect _ | pong | error _ => exact hqueue

theorem queue_hears (msg : ServerMessage) : (c.hears j msg).queue i =
    c.queue i ++ if j = i ∧ c.reads i ∧ c.Feeds i then (c.draft.fold msg).replies else [] := by
  rw [hears]
  have hnone : ∀ h : c.reads j = false, c.queue i =
      c.queue i ++ if j = i ∧ c.reads i ∧ c.Feeds i then (c.draft.fold msg).replies else [] :=
    fun h => by rw [if_neg fun hj => by simp [← hj.1, h] at hj, List.append_nil]
  cases hc : c.connection? j with
  | none => exact hnone (by rw [reads, hc]; rfl)
  | some x =>
    have hreads : c.reads j = x.reading := by rw [reads, hc]; rfl
    dsimp only
    split
    · rename_i hx
      have hiff : j = i ∧ c.reads i = true ∧ c.Feeds i ↔ j = i ∧ c.Feeds i :=
        and_congr_right fun hj => and_iff_right (hj ▸ hreads.trans hx)
      simp only [hiff]
      exact c.queue_fold i j x msg
    · rename_i hx
      exact hnone (hreads.trans (Bool.not_eq_true _ ▸ hx))

theorem queue_connectMade (request : ConnectRequest) : (c.connectMade request).queue i =
    c.queue i ++ if i = c.connections.length then [.connect request] else [] := by
  have hget : (c.connectMade request).connection? i =
      (c.connections ++ [⟨c.generation, [.connect request], true, true⟩])[i]? := rfl
  rw [queue, queue, hget, connection?]
  obtain hi | rfl | hi := Nat.lt_trichotomy i c.connections.length
  · rw [List.getElem?_append_left hi, if_neg (Nat.ne_of_lt hi), List.append_nil]
  · simp
  · rw [if_neg (Nat.ne_of_gt hi), List.append_nil, List.getElem?_eq_none (Nat.le_of_lt hi),
      List.getElem?_eq_none (by rw [List.length_append]; exact hi)]

theorem queue_readEnd : (c.readEnd j).queue i = c.queue i := by
  have hqueue := c.queue_modifyConnection i j (f := fun x => { x with reading := false }) fun _ => rfl
  rw [readEnd]
  cases c.connection? j with
  | none => rfl
  | some x =>
    dsimp only
    split
    · rw [readerEnds]
      split <;> exact hqueue
    · rfl

theorem length_queue_write : ((c.write j).1.queue i).length ≤ (c.queue i).length := by
  rw [write]
  cases hc : c.connection? j with
  | none => exact Nat.le_refl _
  | some x =>
    dsimp only
    split
    · cases hout : x.outgoing with
      | nil =>
        dsimp only
        split
        · exact Nat.le_refl _
        · exact Nat.le_of_eq (congrArg List.length (c.queue_modifyConnection i j fun _ => rfl))
      | cons msg rest =>
        dsimp only
        rw [queue, queue, connection?_modifyConnection]
        split
        · rename_i hj
          subst hj
          simp [hc, hout]
        · exact Nat.le_refl _
    · exact Nat.le_refl _

theorem length_queue_writeFailed : ((c.writeFailed j).queue i).length ≤ (c.queue i).length := by
  rw [writeFailed, queue, queue, connection?_modifyConnection]
  split
  · cases c.connection? i <;> exact Nat.zero_le _
  · exact Nat.le_refl _

theorem draft_hears (msg : ServerMessage) :
    (c.hears i msg).draft = if c.reads i then (c.draft.fold msg).draft else c.draft := by
  rw [hears, reads]
  cases c.connection? i with
  | none => rfl
  | some x =>
    dsimp only [Option.any]
    split
    · exact congrArg Caller.Core.draft (c.core_fold i false x msg)
    · rfl

end Client

end RoomSync
