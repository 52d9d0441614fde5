import RoomSync.Proofs.Draft.PendingWrites

namespace RoomSync

def documentPushes (pushes : List Push) : List PendingPush :=
  pushes.filterMap fun p => if p.presence.isNone then some ⟨p.pushId, p.mutations⟩ else none

theorem documentPushes_append (pushes pushes' : List Push) :
    documentPushes (pushes ++ pushes') = documentPushes pushes ++ documentPushes pushes' :=
  List.filterMap_append ..

theorem documentPushes_map (sessionKey : String) (pending : List PendingPush) :
    documentPushes (pending.map fun p => ⟨sessionKey, p.pushId, p.mutations, none⟩) = pending := by
  rw [documentPushes, List.filterMap_map]
  exact List.filterMap_some

def DataMessage.settles (pushId : Nat) : DataMessage → Bool
  | .patch _ => false
  | .pushResult result => result.pushId = pushId

def ServerMessage.settles (pushId : Nat) : ServerMessage → Bool
  | .data batch => batch.any (DataMessage.settles pushId)
  | .connected _ | .rejectConnect _ | .pong | .error _ => false

namespace Draft

def Input.settles (pushId : Nat) : Input → Bool
  | .receive msg => msg.settles pushId
  | .push _ | .presence => false

variable {d : Draft} {p : PendingPush}

theorem pending_foldData (d : Draft) (msg : DataMessage) :
    (d.foldData msg).1.pending = d.pending.filter fun p => !msg.settles p.pushId := by
  cases msg with
  | patch patch =>
    refine Eq.trans ?_ (List.filter_eq_self.2 fun _ _ => rfl).symm
    obtain he | ⟨replica, event, he⟩ := foldData_patch_cases d patch
    · rw [he]
    · rw [he]
      rfl
  | pushResult result =>
    refine List.filter_congr fun p _ => ?_
    rw [DataMessage.settles, ← decide_not]
    exact decide_eq_decide.2 (not_congr eq_comm)

theorem pending_foldBatch (d : Draft) (batch : List DataMessage) : (d.foldBatch batch).1.pending =
    d.pending.filter fun p => !batch.any (DataMessage.settles p.pushId) := by
  induction batch generalizing d with
  | nil => exact (List.filter_eq_self.2 fun _ _ => rfl).symm
  | cons msg rest ih =>
    refine (ih (d.foldData msg).1).trans ?_
    rw [pending_foldData, List.filter_filter]
    exact List.filter_congr fun p _ => by rw [List.any_cons, Bool.not_or, Bool.and_comm]

theorem pending_fold (d : Draft) (msg : ServerMessage) :
    (d.fold msg).draft.pending = d.pending.filter fun p => !msg.settles p.pushId := by
  cases msg with
  | data batch => exact d.pending_foldBatch batch
  | connected _ | rejectConnect _ | pong | error _ =>
    exact (List.filter_eq_self.2 fun _ _ => rfl).symm

theorem nextPushId_foldBatch (d : Draft) (batch : List DataMessage) :
    (d.foldBatch batch).1.nextPushId = d.nextPushId := by
  induction batch generalizing d with
  | nil => rfl
  | cons msg rest ih =>
    refine (ih (d.foldData msg).1).trans ?_
    cases msg with
    | pushResult result => rfl
    | patch p =>
      obtain he | ⟨replica, event, he⟩ := foldData_patch_cases d p
      · rw [he]
      · rw [he]
        rfl

theorem nextPushId_fold (d : Draft) (msg : ServerMessage) :
    (d.fold msg).draft.nextPushId = d.nextPushId := by
  cases msg with
  | data batch => exact d.nextPushId_foldBatch batch
  | connected _ | rejectConnect _ | pong | error _ => rfl

theorem Numbered.take (h : d.Numbered) (input : Input) : (d.take input).Numbered := by
  cases input with
  | push mutations => exact h.push mutations
  | presence => exact h.allot
  | receive msg => exact (d.keeps_fold msg).numbered h

theorem nextPushId_take (d : Draft) (input : Input) : d.nextPushId ≤ (d.take input).nextPushId := by
  cases input with
  | push _ | presence => exact Nat.le_succ _
  | receive msg => exact Nat.le_of_eq (d.nextPushId_fold msg).symm

theorem mem_pending_take (hp : p.pushId < d.nextPushId) (input : Input) :
    p ∈ (d.take input).pending ↔ p ∈ d.pending ∧ input.settles p.pushId = false := by
  cases input with
  | push mutations =>
    change p ∈ d.pending ++ [⟨d.nextPushId, mutations⟩] ↔ _
    refine ⟨fun h => ⟨?_, rfl⟩, fun h => List.mem_append_left _ h.1⟩
    obtain h | h := List.mem_append.1 h
    · exact h
    · obtain rfl := List.mem_singleton.1 h
      exact absurd hp (Nat.lt_irrefl _)
  | presence => exact (and_iff_left rfl).symm
  | receive msg =>
    change p ∈ (d.fold msg).draft.pending ↔ _
    rw [pending_fold, List.mem_filter, Bool.not_eq_true']
    rfl

end Draft

end RoomSync
