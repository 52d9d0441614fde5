import RoomSync.Client

namespace RoomSync

def ClientMessage.pushes (messages : List ClientMessage) : List Push :=
  messages.filterMap fun
    | .push p => some p
    | _ => none

theorem ClientMessage.pushes_append (xs ys : List ClientMessage) :
    pushes (xs ++ ys) = pushes xs ++ pushes ys := List.filterMap_append ..

theorem ClientMessage.pushes_pending (d : Draft) (pending : List PendingPush) :
    pushes (pending.map d.pushMessage) =
      pending.map fun p => ⟨d.sessionKey, p.pushId, p.mutations, none⟩ := by
  rw [pushes, List.filterMap_map]
  exact congrFun List.filterMap_eq_map' _

namespace Client

/-- The connection that messages are handed to. -/
def line? (c : Client) : Option Connection := c.current.bind c.connection?

/-- The newest connection of a client that connects again is not the one that it waits for, and the
client does not count as connected. -/
structure Lags (c : Client) : Prop where
  state : c.state ≠ .connected
  generation : ∀ connection, c.line? = some connection → connection.generation < c.generation

/-- A client becomes another one that has the same connection and the same name in the room. -/
structure Becomes (c c' : Client) (draft : Draft)
    (g : List ClientMessage → List ClientMessage) : Prop where
  presenceId : c'.presenceId = c.presenceId
  generation : c'.generation = c.generation
  draft : c'.draft = draft
  line : ∀ connection', c'.line? = some connection' → ∃ connection, c.line? = some connection ∧
    connection'.generation = connection.generation ∧ connection'.writing = connection.writing ∧
    connection'.outgoing = g connection.outgoing

variable {c c' : Client} {i : Nat} {connection : Connection} {draft : Draft}
  {g : List ClientMessage → List ClientMessage}

def Writes (c : Client) : Prop := ∀ connection, c.line? = some connection → connection.writing = true

theorem Becomes.lags (h : c.Becomes c' draft g) (hlags : c.Lags) (hs : c'.state ≠ .connected) :
    c'.Lags := by
  refine ⟨hs, fun connection' hl => ?_⟩
  obtain ⟨connection, hl, hgeneration, -, -⟩ := h.line connection' hl
  rw [hgeneration, h.generation]
  exact hlags.generation connection hl

theorem becomes_of_same (hid : c'.presenceId = c.presenceId) (hg : c'.generation = c.generation)
    (hdraft : c'.draft = draft) (hline : c'.line? = c.line?) : c.Becomes c' draft id :=
  ⟨hid, hg, hdraft, fun connection hl => ⟨connection, hline ▸ hl, rfl, rfl, rfl⟩⟩

theorem line?_eq_some :
    c.line? = some connection ↔ ∃ i, c.current = some i ∧ c.connection? i = some connection :=
  Option.bind_eq_some_iff

theorem line?_modifyConnection (hi : c.current = some i) (f : Connection → Connection) :
    (c.modifyConnection i f).line? = c.line?.map f := by
  have hm : (c.modifyConnection i f).current = some i := hi
  rw [line?, line?, hm, hi]
  exact List.getElem?_modify_eq ..

theorem line?_modifyConnection_of_ne (hi : c.current ≠ some i) (f : Connection → Connection) :
    (c.modifyConnection i f).line? = c.line? := by
  have hm : (c.modifyConnection i f).current = c.current := rfl
  rw [line?, line?, hm]
  cases hc : c.current with
  | none => rfl
  | some j => exact List.getElem?_modify_ne _ _ fun he => hi (he ▸ hc)

theorem becomes_modifyConnection (hi : c.current = some i) {f : Connection → Connection}
    (hgeneration : ∀ connection, (f connection).generation = connection.generation)
    (hwriting : ∀ connection, (f connection).writing = connection.writing)
    (hsent : ∀ connection, c.line? = some connection →
      (f connection).outgoing = g connection.outgoing) :
    c.Becomes (c.modifyConnection i f) c.draft g := by
  refine ⟨rfl, rfl, rfl, fun connection' hl => ?_⟩
  rw [line?_modifyConnection hi] at hl
  obtain ⟨connection, hold, rfl⟩ := Option.map_eq_some_iff.1 hl
  exact ⟨connection, hold, hgeneration connection, hwriting connection, hsent connection hold⟩

theorem becomes_handTo (hw : c.Writes) (hi : c.current = some i) (messages : List ClientMessage) :
    c.Becomes (c.handTo i messages) c.draft (· ++ messages) := by
  refine becomes_modifyConnection hi (fun connection => ?_) (fun connection => ?_)
    fun connection hl => ?_
  · split <;> rfl
  · split <;> rfl
  · rw [if_pos (hw connection hl)]

theorem becomes_send (hw : c.Writes) (msg : ClientMessage) :
    c.Becomes (c.send msg).1 c.draft (· ++ [msg]) ∧ (c.send msg).1.state = c.state := by
  rw [send]
  cases hi : c.current with
  | none =>
    have hl : c.line? = none := by rw [line?, hi]; rfl
    exact ⟨⟨rfl, rfl, rfl, fun connection h => nomatch hl.symm.trans h⟩, rfl⟩
  | some i =>
    dsimp only
    cases hc : c.connection? i with
    | none =>
      have hl : c.line? = none := by rw [line?, hi, Option.bind_some, hc]
      exact ⟨⟨rfl, rfl, rfl, fun connection h => nomatch hl.symm.trans h⟩, rfl⟩
    | some connection =>
      dsimp only
      rw [if_pos (hw connection (line?_eq_some.2 ⟨i, hi, hc⟩))]
      exact ⟨becomes_handTo hw hi [msg], rfl⟩

theorem becomes_push (hw : c.Writes) (mutations : List Mutation) :
    c.Becomes (c.push mutations).1 (c.draft.push mutations).1 (fun outgoing =>
        if c.state = .connected then
          outgoing ++ [c.draft.pushMessage (c.draft.push mutations).2] else outgoing) ∧
      (c.push mutations).1.state = c.state := by
  rw [push]
  by_cases hs : c.state = .connected
  · have hb := becomes_send (c := { c with draft := (c.draft.push mutations).1 }) hw
      ((c.draft.push mutations).1.pushMessage (c.draft.push mutations).2)
    simp only [if_pos hs]
    exact ⟨⟨hb.1.presenceId, hb.1.generation, hb.1.draft, hb.1.line⟩, hb.2⟩
  · simp only [if_neg hs]
    exact ⟨becomes_of_same rfl rfl rfl rfl, trivial⟩

theorem becomes_setPresence (hw : c.Writes) (content : Content) :
    c.Becomes (c.setPresence content).1
        (if c.state = .connected then c.draft.allot.1 else c.draft) (fun outgoing =>
          if c.state = .connected then
            outgoing ++ [.push ⟨c.draft.sessionKey, c.draft.allot.2, [], some content⟩]
          else outgoing) ∧
      (c.setPresence content).1.state = c.state := by
  rw [setPresence]
  by_cases hs : c.state = .connected
  · have hb := becomes_send (c := { c with draft := c.draft.allot.1 }) hw
      (.push ⟨c.draft.sessionKey, c.draft.allot.2, [], some content⟩)
    simp only [if_pos hs]
    exact ⟨⟨hb.1.presenceId, hb.1.generation, hb.1.draft, hb.1.line⟩, hb.2⟩
  · simp only [if_neg hs]
    exact ⟨becomes_of_same rfl rfl rfl rfl, trivial⟩

theorem becomes_fold (hw : c.Writes) (hi : c.current = some i) (connection : Connection)
    (msg : ServerMessage) :
    c.Becomes (c.fold i connection msg) (c.draft.fold msg).draft
        (· ++ (c.draft.fold msg).replies) ∧
      ((c.fold i connection msg).state = c.state ∨
        (∃ accepted, msg = .connected accepted) ∧ connection.generation = c.generation) := by
  have hb := becomes_handTo (c := { c with draft := (c.draft.fold msg).draft }) hw hi
    (c.draft.fold msg).replies
  have hsame : ∀ c' : Client, c'.presenceId = c.presenceId → c'.generation = c.generation →
      c'.draft = (c.draft.fold msg).draft → c'.line? =
        (handTo { c with draft := (c.draft.fold msg).draft } i (c.draft.fold msg).replies).line? →
      c.Becomes c' (c.draft.fold msg).draft (· ++ (c.draft.fold msg).replies) :=
    fun c' hid hg hdraft hline => ⟨hid, hg, hdraft, fun connection hl =>
      hb.line connection (hline ▸ hl)⟩
  cases msg with
  | connected accepted =>
    simp only [fold, if_pos hi]
    split
    · rename_i h
      obtain ⟨-, hgeneration⟩ := Bool.and_eq_true_iff.1 h
      exact ⟨hsame _ rfl rfl rfl rfl, .inr ⟨⟨accepted, rfl⟩, of_decide_eq_true hgeneration⟩⟩
    · exact ⟨hsame _ rfl rfl rfl rfl, .inl rfl⟩
  | _ =>
    simp only [fold, if_pos hi]
    exact ⟨hsame _ rfl rfl rfl rfl, .inl rfl⟩

theorem becomes_readEnd (c : Client) (i : Nat) :
    c.Becomes (c.readEnd i) c.draft id ∧
      ((c.readEnd i).state = c.state ∨ (c.readEnd i).state ≠ .connected) := by
  have hb : c.Becomes (c.modifyConnection i fun connection => { connection with reading := false })
      c.draft id := by
    by_cases hi : c.current = some i
    · exact becomes_modifyConnection hi (fun _ => rfl) (fun _ => rfl) fun _ _ => rfl
    · exact becomes_of_same rfl rfl rfl (line?_modifyConnection_of_ne hi _)
  rw [readEnd]
  split
  · exact ⟨becomes_of_same rfl rfl rfl rfl, .inl rfl⟩
  · split
    · rw [readerEnds]
      split
      · exact ⟨⟨rfl, rfl, rfl, hb.line⟩, .inr nofun⟩
      · exact ⟨⟨rfl, rfl, rfl, hb.line⟩, .inl rfl⟩
    · exact ⟨becomes_of_same rfl rfl rfl rfl, .inl rfl⟩

theorem becomes_write (hw : c.Writes) (hi : c.current = some i) (hc : c.connection? i = some connection)
    {msg : ClientMessage} {rest : List ClientMessage} (hout : connection.outgoing = msg :: rest) :
    c.Becomes (c.write i).1 c.draft List.tail ∧ (c.write i).1.state = c.state := by
  have hl : c.line? = some connection := line?_eq_some.2 ⟨i, hi, hc⟩
  simp only [write, hc, if_pos (hw connection hl), hout]
  refine ⟨becomes_modifyConnection hi (fun _ => rfl) (fun _ => rfl) fun connection' hl' => ?_, rfl⟩
  obtain rfl := Option.some.inj (hl.symm.trans hl')
  rw [hout]
  rfl

theorem line?_connectMade (c : Client) (request : ConnectRequest) :
    (c.connectMade request).line? = some ⟨c.generation, [.connect request], true, true⟩ :=
  List.getElem?_concat_length

end Client

end RoomSync
