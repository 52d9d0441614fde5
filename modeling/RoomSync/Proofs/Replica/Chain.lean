import RoomSync.Proofs.Changes
import RoomSync.Replica

namespace RoomSync

open Table

/-- Changes that are made after later ones do no harm, if the later ones are made again: an id that
only the earlier ones name has not changed since. -/
theorem Changes.applyTo_union_of_later {changes later : Changes} {records middle after : Table Record}
    (hmiddle : changes.applyTo middle = middle) (hafter : later.applyTo middle = after)
    (hrecords : later.applyTo records = after) :
    Changes.applyTo (Table.union changes later) records = after := by
  apply Table.ext
  intro id
  have hmiddle := congrArg (Table.get? · id) hmiddle
  have hafter := congrArg (Table.get? · id) hafter
  have hrecords := congrArg (Table.get? · id) hrecords
  simp only [get?_applyTo] at hmiddle hafter hrecords
  rw [get?_applyTo, get?_union]
  cases hl : later.get? id with
  | some change => rwa [hl] at hrecords
  | none =>
    rw [hl] at hafter hrecords
    rw [Option.none_or]
    cases hc : changes.get? id with
    | none => exact hrecords
    | some change =>
      rw [hc] at hmiddle
      exact hmiddle.trans hafter

namespace Replica

/-- The replica after a patch was offered to it, whether it took the patch or not. -/
def offered (r : Replica) (patch : Patch) : Replica :=
  match r.applyPatch patch with
  | .ok (_, next) => next
  | .error _ => r

def offeredAll (r : Replica) (patches : List Patch) : Replica := patches.foldl offered r

end Replica

/-- States at ascending clocks, each of them the one before it changed by a patch. What lies beyond
the length is of no account. -/
structure Chain where
  length : Nat
  state : Nat → Replica
  changes : Nat → Changes
  clock_lt_succ : ∀ i < length, (state i).clock < (state (i + 1)).clock
  applyTo_changes : ∀ i < length,
    (changes i).applyTo (state i).records = (state (i + 1)).records

namespace Chain

/-- The patches that lead from one state to a later one: the one between two neighbours, and what
patches that follow each other are merged to. -/
inductive Span (c : Chain) : Nat → Nat → Patch → Prop
  | single {i : Nat} : i < c.length →
      Span c i (i + 1) ⟨(c.state i).clock, (c.state (i + 1)).clock, c.changes i⟩
  | absorb {i j k : Nat} {p q : Patch} : Span c i j p → Span c j k q → Span c i k (p.absorb q)

def Offers (c : Chain) (patch : Patch) : Prop := ∃ i j, c.Span i j patch

variable {c : Chain} {i j k : Nat} {patch : Patch}

theorem clock_lt (hij : i < j) (hj : j ≤ c.length) : (c.state i).clock < (c.state j).clock := by
  induction hij with
  | refl => exact c.clock_lt_succ i hj
  | step _ ih => exact Nat.lt_trans (ih (Nat.le_of_succ_le hj)) (c.clock_lt_succ _ hj)

theorem clock_le (hij : i ≤ j) (hj : j ≤ c.length) : (c.state i).clock ≤ (c.state j).clock := by
  obtain rfl | hlt := Nat.eq_or_lt_of_le hij
  · exact Nat.le_refl _
  · exact Nat.le_of_lt (clock_lt hlt hj)

theorem eq_of_clock_eq (hi : i ≤ c.length) (hj : j ≤ c.length)
    (h : (c.state i).clock = (c.state j).clock) : i = j := by
  refine Decidable.byContradiction fun hne => ?_
  obtain hlt | hlt := Nat.lt_or_gt_of_ne hne
  · exact Nat.ne_of_lt (clock_lt hlt hj) h
  · exact Nat.ne_of_lt (clock_lt hlt hi) h.symm

namespace Span

theorem lt (h : c.Span i j patch) : i < j := by
  induction h with
  | single _ => exact Nat.lt_succ_self _
  | absorb _ _ ih ih' => exact Nat.lt_trans ih ih'

theorem le_length (h : c.Span i j patch) : j ≤ c.length := by
  induction h with
  | single hi => exact hi
  | absorb _ _ _ ih' => exact ih'

theorem fromClock (h : c.Span i j patch) : patch.fromClock = (c.state i).clock := by
  induction h with
  | single _ => rfl
  | absorb _ _ ih _ => exact ih

theorem toClock (h : c.Span i j patch) : patch.toClock = (c.state j).clock := by
  induction h with
  | single _ => rfl
  | absorb _ _ _ ih' => exact ih'

/-- A patch makes its last state of any state on its way, so what it has made already may be made
again. -/
theorem applyTo (h : c.Span i j patch) (hi : i ≤ k) (hj : k ≤ j) :
    patch.changes.applyTo (c.state k).records = (c.state j).records := by
  induction h generalizing k with
  | @single i hlt =>
    obtain rfl | rfl : k = i ∨ k = i + 1 := by omega
    · exact c.applyTo_changes k hlt
    · rw [← c.applyTo_changes i hlt]
      apply Table.ext
      intro id
      rw [Changes.get?_applyTo, Changes.get?_applyTo]
      cases (c.changes i).get? id <;> rfl
  | @absorb i j l p q hp hq ihp ihq =>
    obtain hle | hlt := Nat.le_total k j
    · calc (p.absorb q).changes.applyTo (c.state k).records
        _ = q.changes.applyTo (p.changes.applyTo (c.state k).records) := Changes.applyTo_union ..
        _ = q.changes.applyTo (c.state j).records := by rw [ihp hi hle]
        _ = (c.state l).records := ihq (Nat.le_refl j) (Nat.le_of_lt hq.lt)
    · -- The replica is past the first patch, whose changes go back to older records for a while.
      exact Changes.applyTo_union_of_later (ihp (Nat.le_of_lt hp.lt) (Nat.le_refl j))
        (ihq (Nat.le_refl j) (Nat.le_of_lt hq.lt)) (ihq hlt hj)

theorem applyPatch (h : c.Span i j patch) (hk : k ≤ c.length) :
    (c.state k).applyPatch patch =
      if j ≤ k then .ok (false, c.state k)
      else if k < i then .error ⟨(c.state k).clock, (c.state i).clock⟩
      else .ok (true, c.state j) := by
  have hlt := h.lt
  have hlength := h.le_length
  rw [Replica.applyPatch, h.fromClock, h.toClock]
  by_cases hjk : j ≤ k
  · rw [if_pos (clock_le hjk hk), if_pos hjk]
  · rw [if_neg (Nat.not_le.2 (clock_lt (Nat.lt_of_not_le hjk) hlength)), if_neg hjk]
    by_cases hki : k < i
    · rw [if_pos (clock_lt hki (by omega)), if_pos hki]
    · rw [if_neg (Nat.not_lt.2 (clock_le (Nat.le_of_not_lt hki) hk)), if_neg hki,
        h.applyTo (Nat.le_of_not_lt hki) (by omega)]

end Span

theorem Offers.offered (h : c.Offers patch) (hk : k ≤ c.length) :
    ∃ k', k ≤ k' ∧ k' ≤ c.length ∧ (c.state k).offered patch = c.state k' := by
  obtain ⟨i, j, h⟩ := h
  have hlength := h.le_length
  rw [Replica.offered, h.applyPatch hk]
  by_cases hjk : j ≤ k
  · rw [if_pos hjk]
    exact ⟨k, Nat.le_refl k, hk, rfl⟩
  · rw [if_neg hjk]
    by_cases hki : k < i
    · rw [if_pos hki]
      exact ⟨k, Nat.le_refl k, hk, rfl⟩
    · rw [if_neg hki]
      exact ⟨j, by omega, hlength, rfl⟩

theorem offeredAll (hk : k ≤ c.length) {patches : List Patch} (h : ∀ p ∈ patches, c.Offers p) :
    ∃ k', k ≤ k' ∧ k' ≤ c.length ∧ (c.state k).offeredAll patches = c.state k' := by
  induction patches generalizing k with
  | nil => exact ⟨k, Nat.le_refl k, hk, rfl⟩
  | cons p rest ih =>
    obtain ⟨hp, hrest⟩ := List.forall_mem_cons.1 h
    obtain ⟨k₁, hle, hk₁, he⟩ := hp.offered hk
    obtain ⟨k₂, hle', hk₂, he'⟩ := ih hk₁ hrest
    refine ⟨k₂, Nat.le_trans hle hle', hk₂, ?_⟩
    rw [Replica.offeredAll, List.foldl_cons, he]
    exact he'

structure Holds (c : Chain) (r : Replica) : Prop where
  reached : ∃ k ≤ c.length, (c.state k).clock = r.clock
  same : ∀ k ≤ c.length, (c.state k).clock = r.clock → r = c.state k

/-- A patch does not take a replica back, and what is covered or starts too late does nothing. -/
structure Heeds (r : Replica) (patch : Patch) : Prop where
  forward : r.clock ≤ (r.offered patch).clock
  covered : ∀ next, r.applyPatch patch = .ok (false, next) → next = r
  gap : ∀ gap, r.applyPatch patch = .error gap →
    r.offered patch = r ∧ r.clock < patch.fromClock

end Chain

/-- Whatever patches of a chain are offered to a replica that is one of its states, repeated, out of
order, with gaps and merged anyhow, the replica is the state of the chain at its clock after each of
them. -/
theorem replica_stays_on_chain (c : Chain) {start : Nat} (hstart : start ≤ c.length)
    {patches : List Patch} (hpatches : ∀ p ∈ patches, c.Offers p) :
    let r := (c.state start).offeredAll patches
    c.Holds r ∧ ∀ patch, c.Offers patch → Chain.Heeds r patch := by
  intro r
  obtain ⟨k, -, hk, hr⟩ := Chain.offeredAll hstart hpatches
  have hr : r = c.state k := hr
  refine ⟨⟨⟨k, hk, hr ▸ rfl⟩, fun k' hk' hclock => ?_⟩, fun patch hpatch => ⟨?_, fun next he => ?_,
    fun gap he => ?_⟩⟩
  · rw [hr] at hclock ⊢
    rw [Chain.eq_of_clock_eq hk' hk hclock]
  · obtain ⟨k', hle, hk', he⟩ := hpatch.offered hk
    rw [hr, he]
    exact Chain.clock_le hle hk'
  · rw [Replica.applyPatch] at he
    split at he
    · cases he
      rfl
    · split at he <;> cases he
  · refine ⟨by rw [Replica.offered, he], ?_⟩
    rw [Replica.applyPatch] at he
    split at he
    · cases he
    · split at he
      · assumption
      · cases he

/-- A replica at the second of four states gets the three patches merged to one, then the first one
again. -/
theorem replica_stays_on_chain_overlapping :
    let a (stamp : Nat) : Record := ⟨"a", "note", .object [], stamp⟩
    let b : Record := ⟨"b", "note", .object [], 4⟩
    let c : Chain :=
      { length := 3
        state := fun
          | 0 => ⟨1, .ofList []⟩
          | 1 => ⟨2, .ofList [("a", a 2)]⟩
          | 2 => ⟨4, .ofList [("a", a 4), ("b", b)]⟩
          | _ => ⟨5, .ofList [("b", b)]⟩
        changes := fun
          | 0 => .ofList [("a", .put (a 2))]
          | 1 => .ofList [("a", .put (a 4)), ("b", .put b)]
          | _ => .ofList [("a", .remove)]
        clock_lt_succ := by decide
        applyTo_changes := by decide +kernel }
    let first : Patch := ⟨1, 2, .ofList [("a", .put (a 2))]⟩
    let merged : Patch := ⟨1, 5, .ofList [("a", .remove), ("b", .put b)]⟩
    let r := (c.state 1).offeredAll [merged, first]
    c.Offers merged ∧ c.Offers first ∧ r = c.state 3 ∧ c.Holds r := by
  intro a b c first merged r
  have h₀ : c.Span 0 1 first := .single (by decide)
  let second : Patch := ⟨2, 4, .ofList [("a", .put (a 4)), ("b", .put b)]⟩
  let third : Patch := ⟨4, 5, .ofList [("a", .remove)]⟩
  have h₁ : c.Span 1 2 second := .single (by decide)
  have h₂ : c.Span 2 3 third := .single (by decide)
  have hmerged : c.Offers merged := by
    have he : merged = first.absorb (second.absorb third) := by decide +kernel
    exact ⟨0, 3, he ▸ h₀.absorb (h₁.absorb h₂)⟩
  have hfirst : c.Offers first := ⟨0, 1, h₀⟩
  have hoffers : ∀ p ∈ [merged, first], c.Offers p :=
    List.forall_mem_cons.2 ⟨hmerged, List.forall_mem_singleton.2 hfirst⟩
  exact ⟨hmerged, hfirst, by decide +kernel,
    (replica_stays_on_chain c (by decide : 1 ≤ c.length) hoffers).1⟩

end RoomSync
