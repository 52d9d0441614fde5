import RoomSync.Proofs.Client.Attachment
import RoomSync.Proofs.Client.Queue
import RoomSync.Proofs.Draft.Settlement

namespace RoomSync

/-- A client whose calls and tasks take the lock of the working copy by turns. -/
structure Underway where
  caller : Caller
  /-- The presences that have a number and were not sent yet. -/
  unsent : List (Nat × Content)
deriving Inhabited

/-- What is done from one release of the lock to the next one. Most calls and tasks need the lock once
only. A client that begins to connect takes it to read its clock, and a presence takes its number under
the lock and is sent without it. -/
inductive Move where
  | occurs (o : Occurrence)
  | readsClock
  /-- A presence takes its number, whether or not the client is connected by now. -/
  | allots (content : Content)
  | sends (n : Nat)
deriving Inhabited

def Move.greets (i : Nat) : Move → Bool
  | .occurs o => o.greets i
  | .readsClock | .allots _ | .sends _ => false

theorem Move.exists_of_greets {i : Nat} {m : Move} (h : m.greets i = true) :
    ∃ accepted, m = .occurs (.hears i (.connected accepted)) := by
  cases m with
  | occurs o =>
    cases o with
    | hears j msg =>
      cases msg with
      | connected accepted =>
        obtain rfl := of_decide_eq_true h
        exact ⟨accepted, rfl⟩
      | data _ | rejectConnect _ | pong | error _ => cases h
    | _ => cases h
  | readsClock | allots _ | sends _ => cases h

namespace Underway

variable (u : Underway) (i : Nat)

def start (url documentId key : String) (schema : Schema) : Underway :=
  ⟨.start url documentId key schema, []⟩

abbrev client : Client := u.caller.client

abbrev draft : Draft := u.caller.client.draft

def step : Move → Underway
  | .occurs o => { u with caller := u.caller.step o }
  | .readsClock =>
    { u with caller.dialing := u.caller.dialing.map fun request =>
        { request with lastKnownClock := u.draft.lastKnownClock } }
  | .allots content =>
    { u with
      caller.client.draft := u.draft.allot.1
      unsent := u.unsent ++ [(u.draft.allot.2, content)] }
  | .sends n =>
    match u.unsent[n]? with
    | none => u
    | some (pushId, content) =>
      { u with
        caller.client := (u.client.send (.push ⟨u.draft.sessionKey, pushId, [], some content⟩)).1
        unsent := u.unsent.eraseIdx n }

def run (moves : List Move) : Underway := moves.foldl step u

theorem step_appears (content : Content) : u.step (.occurs (.appears content)) =
    if u.client.state = .connected then u.run [.allots content, .sends u.unsent.length] else u := by
  by_cases hs : u.client.state = .connected
  · have hget : (u.unsent ++ [(u.draft.allot.2, content)])[u.unsent.length]? =
        some (u.draft.allot.2, content) := List.getElem?_concat_length
    rw [if_pos hs, step, Caller.step, Client.setPresence, if_pos hs, run, List.foldl_cons,
      List.foldl_cons, List.foldl_nil, step, step, hget]
    dsimp only
    rw [List.eraseIdx_append_of_length_le (Nat.le_refl _), Nat.sub_self]
    exact congrArg (Underway.mk _) (List.append_nil _).symm
  · rw [if_neg hs, step, Caller.step, Client.setPresence, if_neg hs]

/-- The document pushes that a move hands to a connection: those at the end of its queue that were not
there before. -/
def hands (m : Move) : List PendingPush :=
  documentPushes (ClientMessage.pushes
    (((u.step m).client.queue i).drop (u.client.queue i).length))

def handed (u : Underway) (i : Nat) : List Move → List PendingPush
  | [] => []
  | m :: rest => u.hands i m ++ (u.step m).handed i rest

def due : Move → List PendingPush
  | .occurs (.pushes mutations) =>
    if u.client.state = .connected ∧ u.client.Feeds i then [⟨u.draft.nextPushId, mutations⟩] else []
  | .occurs (.hears j (.connected _)) =>
    if j = i ∧ u.client.reads i ∧ u.client.Feeds i then u.draft.pending else []
  | _ => []

def input : Move → Option Draft.Input
  | .occurs (.pushes mutations) => some (.push mutations)
  | .occurs (.appears _) => if u.client.state = .connected then some .presence else none
  | .occurs (.hears j msg) => if u.client.reads j then some (.receive msg) else none
  | .allots _ => some .presence
  | _ => none

variable {u i} {m : Move}

theorem hands_of_append {messages : List ClientMessage}
    (h : (u.step m).client.queue i = u.client.queue i ++ messages) :
    u.hands i m = documentPushes (ClientMessage.pushes messages) := by
  rw [hands, h, List.drop_left]

theorem hands_of_le (h : ((u.step m).client.queue i).length ≤ (u.client.queue i).length) :
    u.hands i m = [] := by
  rw [hands, List.drop_eq_nil_of_le h]
  rfl

theorem hands_of_eq (h : (u.step m).client.queue i = u.client.queue i) : u.hands i m = [] :=
  hands_of_le (Nat.le_of_eq (congrArg List.length h))

variable (u i)

theorem hands_eq_due (m : Move) : u.hands i m = u.due i m := by
  cases m with
  | readsClock | allots content => exact hands_of_eq rfl
  | sends n =>
    rw [hands, step]
    cases u.unsent[n]? with
    | none =>
      dsimp only
      rw [List.drop_length]
      rfl
    | some entry =>
      dsimp only
      rw [client, Client.queue_send, List.drop_left]
      split <;> rfl
  | occurs o =>
    cases o with
    | pushes mutations =>
      refine Eq.trans (hands_of_append (u.client.queue_push i mutations)) ?_
      rw [due]
      split <;> rfl
    | appears content =>
      refine Eq.trans (hands_of_append (u.client.queue_setPresence i content)) ?_
      split <;> rfl
    | pings =>
      refine Eq.trans (hands_of_append (u.client.queue_send i .ping)) ?_
      split <;> rfl
    | getsThrough =>
      cases hd : u.caller.dialing with
      | none => exact hands_of_eq (by rw [step, Caller.step, hd])
      | some request =>
        have hqueue : (u.step (.occurs .getsThrough)).client.queue i =
            (u.client.connectMade request).queue i := by rw [step, Caller.step, hd]
        refine Eq.trans (hands_of_append (hqueue.trans (u.client.queue_connectMade i request))) ?_
        split <;> rfl
    | getsNowhere =>
      refine hands_of_eq ?_
      rw [step, Caller.step]
      split <;> rfl
    | hears j msg =>
      refine Eq.trans (hands_of_append (u.client.queue_hears i j msg)) ?_
      cases msg with
      | connected accepted =>
        rw [due]
        split
        · exact (congrArg documentPushes (ClientMessage.pushes_pending ..)).trans
            (documentPushes_map u.draft.sessionKey u.draft.pending)
        · rfl
      | data _ | rejectConnect _ | pong | error _ => split <;> rfl
    | losesTouch j => exact hands_of_eq (u.client.queue_readEnd i j)
    | writes j => exact hands_of_le (u.client.length_queue_write i j)
    | cannotWrite j => exact hands_of_le (u.client.length_queue_writeFailed i j)
    | dials | hangsUp | takesEvents => exact hands_of_eq rfl

theorem draft_step (m : Move) : (u.step m).draft = (u.input m).elim u.draft u.draft.take := by
  cases m with
  | readsClock | allots content => rfl
  | sends n =>
    rw [step, draft]
    split
    · rfl
    · exact congrArg Caller.Core.draft (u.client.core_send false _)
  | occurs o =>
    have hcore : (u.step (.occurs o)).draft = (u.caller.core.step o).draft :=
      congrArg Caller.Core.draft (u.caller.core_step o)
    cases o with
    | appears content =>
      rw [hcore, input, Caller.Core.step]
      change (if u.client.state = .connected then _ else _ : Caller.Core).draft = _
      split <;> rfl
    | hears j msg =>
      refine (u.client.draft_hears j msg).trans ?_
      rw [input]
      split <;> rfl
    | getsThrough =>
      rw [hcore, Caller.Core.step]
      split <;> rfl
    | getsNowhere =>
      rw [hcore, Caller.Core.step]
      split <;> rfl
    | losesTouch j =>
      obtain ⟨state, links, he⟩ := u.caller.core.losesTouch_cases j
      rw [hcore, Caller.Core.step, he]
      rfl
    | pushes _ | dials | hangsUp | pings | takesEvents | writes _ | cannotWrite _ => exact hcore

theorem step_aside (hm : ∀ o, m ≠ .occurs o) :
    (u.step m).client.current = u.client.current ∧
      ∃ draft, (u.step m).caller.core = { u.caller.core with draft } := by
  cases m with
  | occurs o => exact absurd rfl (hm o)
  | allots content => exact ⟨rfl, _, rfl⟩
  | readsClock =>
    refine ⟨rfl, u.draft, ?_⟩
    rw [step, Caller.core, Option.isSome_map]
    rfl
  | sends n =>
    rw [step]
    split
    · exact ⟨rfl, u.draft, rfl⟩
    · exact ⟨u.client.current_send _, u.draft, u.client.core_send _ _⟩

variable {u i} {moves : List Move} {p : PendingPush}

theorem numbered_step (h : u.draft.Numbered) (m : Move) : (u.step m).draft.Numbered := by
  rw [draft_step]
  cases u.input m with
  | none => exact h
  | some input => exact h.take input

theorem nextPushId_step (u : Underway) (m : Move) :
    u.draft.nextPushId ≤ (u.step m).draft.nextPushId := by
  rw [draft_step]
  cases u.input m with
  | none => exact Nat.le_refl _
  | some input => exact u.draft.nextPushId_take input

theorem attached_step (h : u.caller.Attached) (m : Move) : (u.step m).caller.Attached := by
  by_cases hm : ∃ o, m = .occurs o
  · obtain ⟨o, rfl⟩ := hm
    exact h.step o
  · obtain ⟨hcurrent, draft, hcore⟩ := u.step_aside fun o ho => hm ⟨o, ho⟩
    have hnumbered : (u.step m).caller.core.draft.Numbered := numbered_step h.sound.numbered m
    refine ⟨⟨hnumbered, ?_, ?_, ?_⟩, ?_, ?_⟩ <;> rw [hcore]
    · exact h.sound.ascending
    · exact h.sound.bounded
    · exact h.sound.dialing
    · exact fun i hi => hcurrent.trans (h.newest i hi)
    · exact h.idle

theorem attached_run (h : u.caller.Attached) (moves : List Move) : (u.run moves).caller.Attached := by
  induction moves generalizing u with
  | nil => exact h
  | cons m rest ih => exact ih (attached_step h m)

theorem keepsBack_step (h : u.caller.Attached) (hback : u.caller.KeepsBack i)
    (hm : m.greets i = false) : (u.step m).caller.KeepsBack i := by
  by_cases ho : ∃ o, m = .occurs o
  · obtain ⟨o, rfl⟩ := ho
    exact h.keepsBack_step hback hm
  · obtain ⟨hcurrent, draft, hcore⟩ := u.step_aside fun o h => ho ⟨o, h⟩
    intro hs
    change (u.step m).client.current ≠ some i
    rw [hcurrent]
    exact hback ((congrArg Caller.Core.state hcore).symm.trans hs)

theorem due_cases (hm : m.greets i = false) : u.due i m = [] ∨
    ∃ mutations, m = .occurs (.pushes mutations) ∧ u.client.state = .connected ∧
      u.client.Feeds i ∧ u.due i m = [⟨u.draft.nextPushId, mutations⟩] := by
  unfold due
  split
  · split
    · rename_i mutations h
      exact .inr ⟨mutations, rfl, h.1, h.2, rfl⟩
    · exact .inl rfl
  · refine .inl (if_neg fun h => ?_)
    exact of_decide_eq_false hm h.1.symm
  · exact .inl rfl

theorem handed_of_keepsBack (h : u.caller.Attached) (hback : u.caller.KeepsBack i)
    (hmoves : ∀ m ∈ moves, Move.greets i m = false) : u.handed i moves = [] := by
  induction moves generalizing u with
  | nil => rfl
  | cons m rest ih =>
    obtain ⟨hm, hrest⟩ := List.forall_mem_cons.1 hmoves
    rw [handed, ih (attached_step h m) (keepsBack_step h hback hm) hrest, List.append_nil,
      hands_eq_due]
    obtain he | ⟨mutations, -, hs, hfeeds, -⟩ := due_cases hm
    · exact he
    · exact absurd hfeeds.1 (hback hs)

theorem handed_later (u : Underway) (hmoves : ∀ m ∈ moves, Move.greets i m = false) :
    (∀ p ∈ u.handed i moves, u.draft.nextPushId ≤ p.pushId) ∧
      (u.handed i moves).Pairwise fun p q => p.pushId < q.pushId := by
  induction moves generalizing u with
  | nil => exact ⟨nofun, .nil⟩
  | cons m rest ih =>
    obtain ⟨hm, hrest⟩ := List.forall_mem_cons.1 hmoves
    obtain ⟨hlater, hascending⟩ := ih (u.step m) hrest
    rw [handed, hands_eq_due]
    obtain he | ⟨mutations, rfl, -, -, he⟩ := due_cases (u := u) hm
    · rw [he, List.nil_append]
      exact ⟨fun p hp => Nat.le_trans (u.nextPushId_step m) (hlater p hp), hascending⟩
    · have hnext : (u.step (.occurs (.pushes mutations))).draft.nextPushId =
          u.draft.nextPushId + 1 := by rw [draft_step]; rfl
      rw [hnext] at hlater
      rw [he, List.singleton_append]
      refine ⟨List.forall_mem_cons.2 ⟨Nat.le_refl _, fun p hp => ?_⟩,
        List.pairwise_cons.2 ⟨fun p hp => hlater p hp, hascending⟩⟩
      exact Nat.le_of_lt (hlater p hp)

theorem run_append (u : Underway) (moves moves' : List Move) :
    u.run (moves ++ moves') = (u.run moves).run moves' := List.foldl_append

theorem handed_append (u : Underway) (i : Nat) (moves moves' : List Move) :
    u.handed i (moves ++ moves') = u.handed i moves ++ (u.run moves).handed i moves' := by
  induction moves generalizing u with
  | nil => rfl
  | cons m rest ih => exact (congrArg (u.hands i m ++ ·) (ih _)).trans (List.append_assoc ..).symm

theorem mem_pending_step (hp : p.pushId < u.draft.nextPushId) : p ∈ (u.step m).draft.pending ↔
    p ∈ u.draft.pending ∧ ∀ i msg, m = .occurs (.hears i msg) → u.client.reads i = true →
      msg.settles p.pushId = false := by
  have hsettles : (∀ input, u.input m = some input → input.settles p.pushId = false) ↔
      ∀ i msg, m = .occurs (.hears i msg) → u.client.reads i = true →
        msg.settles p.pushId = false := by
    constructor
    · rintro h i msg rfl hreads
      exact h (.receive msg) (if_pos hreads)
    · intro h input hinput
      unfold Underway.input at hinput
      split at hinput
      · cases hinput
        rfl
      · split at hinput <;> cases hinput
        rfl
      · split at hinput <;> cases hinput
        exact h _ _ rfl ‹_›
      · cases hinput
        rfl
      · cases hinput
  rw [draft_step, ← hsettles]
  cases u.input m with
  | none => exact (and_iff_left nofun).symm
  | some input =>
    refine (Draft.mem_pending_take hp input).trans (and_congr_right fun _ => ?_)
    exact ⟨fun h input' he => Option.some.inj he ▸ h, fun h => h input rfl⟩

theorem mem_pending_run (hp : p.pushId < u.draft.nextPushId) : p ∈ (u.run moves).draft.pending ↔
    p ∈ u.draft.pending ∧ ∀ done i msg rest, moves = done ++ .occurs (.hears i msg) :: rest →
      (u.run done).client.reads i = true → msg.settles p.pushId = false := by
  induction moves generalizing u with
  | nil =>
    refine (and_iff_left fun done i msg rest he => ?_).symm
    exact absurd he.symm (List.append_ne_nil_of_right_ne_nil done (List.cons_ne_nil _ _))
  | cons m tail ih =>
    refine (ih (Nat.lt_of_lt_of_le hp (u.nextPushId_step m))).trans ?_
    rw [mem_pending_step hp, and_assoc]
    refine and_congr_right fun _ => ⟨fun ⟨hnow, hlater⟩ done i msg rest he hreads => ?_,
      fun h => ⟨fun i msg he hreads => ?_, fun done i msg rest he hreads => ?_⟩⟩
    · cases done with
      | nil =>
        obtain ⟨rfl, -⟩ := List.cons.inj he
        exact hnow i msg rfl hreads
      | cons _ done =>
        obtain ⟨rfl, htail⟩ := List.cons.inj he
        exact hlater done i msg rest htail hreads
    · exact h [] i msg tail (he ▸ rfl) hreads
    · exact h (m :: done) i msg rest (he ▸ rfl) hreads

/-- How a client hands over its pushes. -/
structure HandsInOrder (u : Underway) (moves : List Move) : Prop where
  ascending : ∀ i, moves.countP (Move.greets i) ≤ 1 →
    ((u.handed i moves).map PendingPush.pushId).Pairwise (· < ·)
  /-- An accepted handshake that is read on the newest connection has all unsettled pushes handed over,
  and what is handed over besides was made later. -/
  replayed : ∀ i before accepted after, moves.countP (Move.greets i) ≤ 1 →
    moves = before ++ .occurs (.hears i (.connected accepted)) :: after →
    (u.run before).client.reads i = true → (u.run before).client.Feeds i →
    ∃ later, u.handed i moves = (u.run before).draft.pending ++ later ∧
      ∀ p ∈ later, (u.run before).draft.nextPushId ≤ p.pushId
  /-- A push is unsettled until a result for it is read. -/
  remembered : ∀ before mutations after, moves = before ++ .occurs (.pushes mutations) :: after →
    let pushId := (u.run before).draft.nextPushId
    let made := before ++ [.occurs (.pushes mutations)]
    ⟨pushId, mutations⟩ ∈ (u.run moves).draft.pending ↔
      ∀ done i msg rest, after = done ++ .occurs (.hears i msg) :: rest →
        (u.run (made ++ done)).client.reads i = true → msg.settles pushId = false

/-- A connection on which handshakes are accepted at most once is handed nothing before that, all
unsettled pushes then, and later ones after it. -/
theorem handed_around (h : u.caller.Attached) (hback : u.caller.KeepsBack i)
    {before after : List Move} {accepted : Accepted}
    (hcount : (before ++ .occurs (.hears i (.connected accepted)) :: after).countP (Move.greets i) ≤ 1) :
    let greeted := (u.run before).step (.occurs (.hears i (.connected accepted)))
    u.handed i (before ++ .occurs (.hears i (.connected accepted)) :: after) =
        (if (u.run before).client.reads i ∧ (u.run before).client.Feeds i then
          (u.run before).draft.pending else []) ++ greeted.handed i after ∧
      (∀ p ∈ greeted.handed i after, (u.run before).draft.nextPushId ≤ p.pushId) ∧
      (greeted.handed i after).Pairwise fun p q => p.pushId < q.pushId := by
  intro greeted
  have hgreets : Move.greets i (.occurs (.hears i (.connected accepted))) = true := decide_eq_true rfl
  rw [List.countP_append, List.countP_cons_of_pos hgreets] at hcount
  have hnone : ∀ moves : List Move, moves.countP (Move.greets i) = 0 →
      ∀ m ∈ moves, Move.greets i m = false := fun moves h m hm =>
    Bool.eq_false_iff.2 (List.countP_eq_zero.1 h m hm)
  have hbefore := hnone before (by omega)
  obtain ⟨hlater, hascending⟩ := greeted.handed_later (hnone after (by omega))
  refine ⟨?_, fun p hp => Nat.le_trans ((u.run before).nextPushId_step _) (hlater p hp), hascending⟩
  rw [handed_append, handed_of_keepsBack h hback hbefore, List.nil_append, handed, hands_eq_due, due]
  simp only [true_and]
  rfl

/-- Whatever the application calls and however its calls and the tasks of the connections take turns,
the client hands over its pushes in order. -/
theorem pushes_handed_in_order (url documentId key : String) (schema : Schema)
    (moves : List Move) : (start url documentId key schema).HandsInOrder moves := by
  have h : (start url documentId key schema).caller.Attached := Caller.attached_start ..
  have hback : ∀ i, (start url documentId key schema).caller.KeepsBack i := fun i hs => nomatch hs
  generalize start url documentId key schema = u at h hback
  refine ⟨fun i hcount => ?_, ?_, ?_⟩
  · rw [List.pairwise_map]
    by_cases hgreeted : ∃ m ∈ moves, Move.greets i m = true
    · obtain ⟨m, hm, hgreets⟩ := hgreeted
      obtain ⟨before, after, rfl⟩ := List.append_of_mem hm
      obtain ⟨accepted, rfl⟩ := Move.exists_of_greets hgreets
      obtain ⟨he, hlater, hascending⟩ := handed_around h (hback i) hcount
      have hnumbered : (u.run before).draft.Numbered := (attached_run h before).sound.numbered
      rw [he]
      split
      · refine List.pairwise_append.2 ⟨hnumbered.ascending, hascending, fun p hp q hq => ?_⟩
        exact Nat.lt_of_lt_of_le (hnumbered.allotted p hp) (hlater q hq)
      · exact hascending
    · refine (handed_later u fun m hm => ?_).2
      exact Bool.eq_false_iff.2 fun hgreets => hgreeted ⟨m, hm, hgreets⟩
  · rintro i before accepted after hcount rfl hreads hfeeds
    obtain ⟨he, hlater, -⟩ := handed_around h (hback i) hcount
    rw [if_pos ⟨hreads, hfeeds⟩] at he
    exact ⟨_, he, hlater⟩
  · rintro before mutations after rfl pushId made
    have hmade : (u.run made).draft = ((u.run before).draft.push mutations).1 := by
      rw [run_append]
      exact (u.run before).draft_step (.occurs (.pushes mutations))
    have hmoves : before ++ .occurs (.pushes mutations) :: after = made ++ after := by
      rw [List.append_assoc, List.singleton_append]
    have hp : pushId < (u.run made).draft.nextPushId := by
      rw [hmade]
      exact Nat.lt_succ_self pushId
    have hmem : ⟨pushId, mutations⟩ ∈ (u.run made).draft.pending := by
      rw [hmade]
      exact List.mem_append_right _ List.mem_cons_self
    rw [hmoves, run_append, mem_pending_run hp, and_iff_right hmem]
    simp only [run_append]

/-- The first connection is let go after one push, whose result comes late. The second one is handed the
pushes that were made before its handshake was accepted, and then the next one; a presence with an
earlier number goes in between. -/
theorem pushes_handed_on_reconnect :
    let hears (i : Nat) (msg : ServerMessage) : Move := .occurs (.hears i msg)
    let pushes (id : String) : Move := .occurs (.pushes [⟨id, .upsert "note" .null⟩])
    let accepted : Accepted := ⟨0, 1, false, .full []⟩
    let moves : List Move := [.occurs .dials, .readsClock, .occurs .getsThrough,
      hears 0 (.connected accepted), .allots .null, pushes "a", .occurs .hangsUp, pushes "b",
      .occurs .dials, hears 0 (.data [.pushResult ⟨2, 1, []⟩]), .readsClock, .occurs .getsThrough,
      pushes "c", hears 1 (.connected accepted), .sends 0, pushes "d"]
    let u := start "ws://host" "d" "k" (.base 1)
    (u.handed 0 moves).map PendingPush.pushId = [2] ∧
      (u.handed 1 moves).map PendingPush.pushId = [3, 4, 5] ∧
      (u.run moves).draft.pending.map PendingPush.pushId = [3, 4, 5] ∧ u.HandsInOrder moves := by
  intro hears pushes accepted moves u
  exact ⟨by decide +kernel, by decide +kernel, by decide +kernel, pushes_handed_in_order ..⟩

end Underway

end RoomSync
