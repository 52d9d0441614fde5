import RoomSync.Outbox

namespace RoomSync

/-- The second list is the first one with some adjacent patches merged. -/
inductive Merges : List DataMessage → List DataMessage → Prop
  | refl (msgs : List DataMessage) : Merges msgs msgs
  | merge {before after merged : List DataMessage} {p q : Patch} :
      Merges (before ++ .patch (p.absorb q) :: after) merged →
      Merges (before ++ .patch p :: .patch q :: after) merged

namespace Merges

theorem trans {xs ys zs : List DataMessage} (h : Merges xs ys) (h' : Merges ys zs) :
    Merges xs zs := by
  induction h with
  | refl msgs => exact h'
  | merge _ ih => exact .merge (ih h')

theorem append_left (front : List DataMessage) {xs ys : List DataMessage} (h : Merges xs ys) :
    Merges (front ++ xs) (front ++ ys) := by
  induction h with
  | refl msgs => exact .refl _
  | merge _ ih =>
    rw [← List.append_assoc] at ih ⊢
    exact .merge ih

theorem append_right (back : List DataMessage) {xs ys : List DataMessage} (h : Merges xs ys) :
    Merges (xs ++ back) (ys ++ back) := by
  induction h with
  | refl msgs => exact .refl _
  | merge _ ih =>
    rw [List.append_assoc] at ih ⊢
    exact .merge ih

theorem cons (msg : DataMessage) {xs ys : List DataMessage} (h : Merges xs ys) :
    Merges (msg :: xs) (msg :: ys) := h.append_left [msg]

theorem then_held {held posted sent held' posted' sent' held'' : List DataMessage}
    (h : Merges (held ++ posted) (sent ++ held'))
    (h' : Merges (held' ++ posted') (sent' ++ held'')) :
    Merges (held ++ (posted ++ posted')) (sent ++ sent' ++ held'') := by
  have h := h.append_right posted'
  have h' := h'.append_left sent
  rw [List.append_assoc, List.append_assoc] at h
  rw [← List.append_assoc sent sent'] at h'
  exact h.trans h'

theorem all {P : DataMessage → Prop}
    (habsorb : ∀ p q : Patch, P (.patch p) → P (.patch q) → P (.patch (p.absorb q)))
    {xs ys : List DataMessage} (h : Merges xs ys) (hxs : ∀ msg ∈ xs, P msg) : ∀ msg ∈ ys, P msg := by
  induction h with
  | refl msgs => exact hxs
  | @merge before after merged p q _ ih =>
    simp only [List.forall_mem_append, List.forall_mem_cons] at hxs ih
    exact ih ⟨hxs.1, habsorb p q hxs.2.1 hxs.2.2.1, hxs.2.2.2⟩

end Merges

theorem merges_coalesce (msgs : List DataMessage) :
    Merges msgs (coalesce msgs) ∧ ∀ p, Merges (.patch p :: msgs) (coalesceAfter p msgs) := by
  induction msgs with
  | nil => exact ⟨.refl _, fun p => .refl _⟩
  | cons msg rest ih =>
    obtain ⟨hc, ha⟩ := ih
    cases msg with
    | patch q => exact ⟨ha q, fun p => @Merges.merge [] rest _ p q (ha (p.absorb q))⟩
    | pushResult r => exact ⟨hc.cons _, fun p => (hc.cons _).cons _⟩

def Posting.sent : Posting → List DataMessage
  | .send batch => batch
  | .held | .overflow => []

namespace Outbox

def Windowed (o : Outbox) : Prop := o.deadline = none → o.held = []

theorem windowed_start (clock now : Nat) : (start clock now).Windowed := fun _ => rfl

variable {o : Outbox} (msg : DataMessage) (now : Nat) (config : Config)

@[simp] theorem lastSent_enqueue : (o.enqueue msg now config).1.lastSent = msg.clock := by
  unfold enqueue
  cases o.deadline with
  | none => rfl
  | some deadline =>
    dsimp only
    split <;> rfl

theorem windowed_enqueue : (o.enqueue msg now config).1.Windowed := by
  unfold enqueue
  cases hd : o.deadline with
  | none => nofun
  | some deadline =>
    dsimp only
    split <;> nofun

theorem enqueue_posting :
    (o.enqueue msg now config).2 = .overflow ∨
      ((o.enqueue msg now config).2 = .held ∧
        (o.enqueue msg now config).1.held = o.held ++ [msg]) ∨
      ((o.enqueue msg now config).2 = .send [msg] ∧ o.deadline = none ∧
        (o.enqueue msg now config).1.held = o.held) := by
  unfold enqueue
  cases o.deadline with
  | none => exact .inr (.inr ⟨rfl, rfl, rfl⟩)
  | some deadline =>
    dsimp only
    split
    · exact .inl rfl
    · exact .inr (.inl ⟨rfl, rfl⟩)

theorem enqueue_cases (h : o.Windowed) :
    (o.enqueue msg now config).2 = .overflow ∨
      ((o.enqueue msg now config).2 = .held ∧
        (o.enqueue msg now config).1.held = o.held ++ [msg]) ∨
      ((o.enqueue msg now config).2 = .send [msg] ∧ o.held = [] ∧
        (o.enqueue msg now config).1.held = []) :=
  (o.enqueue_posting msg now config).imp_right <| Or.imp_right fun ⟨hsend, hclosed, hheld⟩ =>
    ⟨hsend, h hclosed, hheld.trans (h hclosed)⟩

theorem flushDue_cases (debounce : Nat) :
    ((o.flushDue now debounce).2 = none ∧ (o.flushDue now debounce).1.held = o.held) ∨
      ((o.flushDue now debounce).2 = some (coalesce o.held) ∧
        (o.flushDue now debounce).1.held = []) := by
  unfold flushDue
  cases o.deadline with
  | none => exact .inl ⟨rfl, rfl⟩
  | some deadline =>
    dsimp only
    split
    · exact .inl ⟨rfl, rfl⟩
    · split
      · exact .inl ⟨rfl, rfl⟩
      · exact .inr ⟨rfl, rfl⟩

@[simp] theorem lastSent_flushDue (debounce : Nat) :
    (o.flushDue now debounce).1.lastSent = o.lastSent := by
  unfold flushDue
  cases o.deadline with
  | none => rfl
  | some deadline =>
    dsimp only
    split
    · rfl
    · split <;> rfl

theorem Windowed.flushDue (h : o.Windowed) (debounce : Nat) :
    (o.flushDue now debounce).1.Windowed := by
  unfold Outbox.flushDue
  cases hd : o.deadline with
  | none => exact h
  | some deadline =>
    dsimp only
    split
    · exact h
    · split
      · rename_i he
        exact fun _ => List.isEmpty_iff.1 he
      · nofun

end Outbox

end RoomSync
