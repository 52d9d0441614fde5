import RoomSync.Content.Printer
import RoomSync.Content.Reader

namespace RoomSync.Content

theorem hexValue?_hexDigit (n : Nat) : hexValue? (hexDigit n) = some (n % 16) := by
  have hall : ∀ d < 16, hexValue? ((Nat.toDigits 16 d).headD '0') = some d := by decide
  exact hall (n % 16) (Nat.mod_lt n (by decide))

theorem readEscape_control {c : Char} (h : c.toNat < 0x20) (rest : List Char) :
    readEscape ('u' :: '0' :: '0' :: hexDigit (c.toNat / 16) :: hexDigit c.toNat :: rest) =
      some (c, rest) := by
  have hunit : readUnit ('0' :: '0' :: hexDigit (c.toNat / 16) :: hexDigit c.toNat :: rest) =
      some (c.toNat, rest) := by
    have hzero : hexValue? '0' = some 0 := by decide
    simp only [readUnit, hzero, hexValue?_hexDigit, Option.bind_eq_bind, Option.bind_some,
      Option.some.injEq, Prod.mk.injEq, and_true]
    omega
  simp only [readEscape, readCodePoint, hunit, Option.bind_eq_bind, Option.bind_some]
  rw [if_neg (by omega), if_neg (by omega), Char.ofNat_toNat]

theorem readText_plain (budget : Nat) {c : Char} (hquote : c ≠ '"') (hbackslash : c ≠ '\\')
    (hplain : ¬c.toNat < 0x20) (cs : List Char) :
    readText (budget + 1) (c :: cs) =
      (readText budget cs).map fun found => (c :: found.1, found.2) := by
  rw [readText, if_neg hplain]
  · cases readText budget cs <;> rfl
  · exact hquote
  · exact hbackslash

theorem readText_escape (budget : Nat) (c : Char) (cs : List Char) :
    readText (budget + 1) (escape c ++ cs) =
      (readText budget cs).map fun found => (c :: found.1, found.2) := by
  have hescaped : ∀ {cs' : List Char}, readEscape cs' = some (c, cs) →
      readText (budget + 1) ('\\' :: cs') =
        (readText budget cs).map fun found => (c :: found.1, found.2) := by
    intro cs' hread
    simp only [readText, hread, Option.bind_eq_bind, Option.bind_some]
    cases readText budget cs <;> rfl
  fun_cases escape c with
  | case8 _ _ _ _ _ _ _ hcontrol => exact hescaped (readEscape_control hcontrol cs)
  | case9 hquote hbackslash _ _ _ _ _ hplain =>
    exact readText_plain budget hquote hbackslash hplain cs
  | _ =>
    subst c
    exact hescaped rfl

theorem readText_escaped {budget : Nat} {s : List Char} (h : s.length < budget)
    (rest : List Char) : readText budget (s.flatMap escape ++ '"' :: rest) = some (s, rest) := by
  induction s generalizing budget with
  | nil =>
    obtain ⟨budget, rfl⟩ := Nat.exists_eq_succ_of_ne_zero (Nat.ne_of_gt h)
    rfl
  | cons c s ih =>
    obtain ⟨budget, rfl⟩ := Nat.exists_eq_succ_of_ne_zero (Nat.ne_of_gt (Nat.zero_lt_of_lt h))
    rw [List.flatMap_cons, List.append_assoc, readText_escape, ih (Nat.lt_of_succ_lt_succ h)]
    rfl

theorem length_le_escaped (s : List Char) : s.length ≤ (s.flatMap escape).length := by
  induction s with
  | nil => exact Nat.le_refl 0
  | cons c s ih =>
    have hc : 1 ≤ (escape c).length := by
      fun_cases escape c <;> simp
    rw [List.flatMap_cons, List.length_append, List.length_cons]
    omega

end RoomSync.Content
