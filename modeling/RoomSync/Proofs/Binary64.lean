import RoomSync.Binary64

namespace RoomSync.Binary64

/-- A zero has the smallest exponent. -/
def NormalZero (x : Binary64) : Prop := x.mantissa = 0 → x.exponent = -1074

instance (x : Binary64) : Decidable x.NormalZero := inferInstanceAs (Decidable (_ → _))

theorem normalZero_zero : zero.NormalZero := fun _ => rfl

theorem NormalZero.neg {x : Binary64} (h : x.NormalZero) : x.neg.NormalZero := h

theorem roundHalfEven_pos {num den : Nat} (hnum : 0 < num) (h : den ≤ num) :
    0 < roundHalfEven num den := by
  unfold roundHalfEven
  cases den with
  | zero => simp [hnum]
  | succ den =>
    have hquotient : 0 < num / (den + 1) := Nat.div_pos h (Nat.succ_pos den)
    simp only []
    split <;> omega

theorem scaled_pos {num : Nat} (hnum : num ≠ 0) (den : Nat) (exponent : Int) :
    0 < (scaled num den exponent).1 :=
  Nat.mul_pos (Nat.pos_of_ne_zero hnum) (Nat.pow_pos (by decide))

theorem scaled_exponentOf {num den : Nat} (hnum : num ≠ 0) (h : exponentOf num den ≠ -1074) :
    (scaled num den (exponentOf num den)).2 ≤ (scaled num den (exponentOf num den)).1 := by
  have hle : exponentOf num den ≤ (num.log2 : Int) - (den.log2 : Int) - 52 := by
    simp only [exponentOf] at h ⊢
    split at h <;> omega
  generalize exponentOf num den = exponent at hle
  simp only [scaled, Nat.pow_eq]
  calc den * 2 ^ exponent.toNat
      ≤ 2 ^ (den.log2 + 1) * 2 ^ exponent.toNat :=
        Nat.mul_le_mul_right _ (Nat.le_of_lt Nat.lt_log2_self)
    _ = 2 ^ (den.log2 + 1 + exponent.toNat) := (Nat.pow_add ..).symm
    _ ≤ 2 ^ (num.log2 + (-exponent).toNat) := Nat.pow_le_pow_right (by decide) (by omega)
    _ = 2 ^ num.log2 * 2 ^ (-exponent).toNat := Nat.pow_add ..
    _ ≤ num * 2 ^ (-exponent).toNat := Nat.mul_le_mul_right _ (Nat.log2_self_le hnum)

theorem normalZero_nearest? {num den : Nat} {x : Binary64} (h : nearest? num den = some x) :
    x.NormalZero := by
  unfold nearest? at h
  split at h
  · cases h
    exact normalZero_zero
  · rename_i hnum
    simp only [Option.ite_none_right_eq_some, Option.some.injEq] at h
    obtain ⟨-, rfl⟩ := h
    split
    · intro hzero
      refine Decidable.byContradiction fun hexponent => ?_
      have hscaled := scaled_exponentOf hnum hexponent
      have hpos := roundHalfEven_pos (scaled_pos hnum _ _) hscaled
      exact absurd hzero (Nat.ne_of_gt hpos)
    · rename_i hlarge
      intro hzero
      have hone : 2 ^ 53 ≤ roundHalfEven _ _ := Nat.le_of_not_lt hlarge
      change _ / 2 = 0 at hzero
      omega

theorem normalZero_ofNat (n : Nat) : (ofNat n).NormalZero := by
  unfold ofNat
  cases h : nearest? n 1 with
  | none => exact normalZero_zero
  | some x => exact normalZero_nearest? h

theorem normalZero_divPowersOfTen {budget : Nat} {x y : Binary64} {e : Nat}
    (h : divPowersOfTen budget x e = some y) : y.NormalZero := by
  induction budget generalizing x e with
  | zero =>
    cases h
    exact normalZero_zero
  | succ budget ih =>
    unfold divPowersOfTen at h
    split at h
    · exact normalZero_nearest? h
    · split at h
      · cases h
        exact normalZero_zero
      · obtain ⟨z, -, h⟩ := Option.bind_eq_some_iff.1 h
        exact ih h

theorem normalZero_ofScientific? {significand : Nat} {exponent : Int} {x : Binary64}
    (h : ofScientific? significand exponent = some x) : x.NormalZero := by
  unfold ofScientific? at h
  simp only [] at h
  split at h
  · exact normalZero_divPowersOfTen h
  · split at h
    · exact normalZero_nearest? h
    · split at h
      · cases h
        exact normalZero_zero
      · cases h

end RoomSync.Binary64
