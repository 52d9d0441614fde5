import Mathlib.Algebra.Group.Nat.Defs
import Mathlib.Algebra.Group.Int.Defs
import RoomSync.Content.Printer
import RoomSync.Content.Reader

namespace RoomSync.Content

def isNumeral (c : Char) : Bool :=
  c.isDigit || c = '-' || c = '+' || c = '.' || c = 'e' || c = 'E'

/-- A number that ends here is not continued by what follows. -/
def Stops (rest : List Char) : Prop := ∀ c, rest.head? = some c → isNumeral c = false

theorem stops_nil : Stops [] := nofun

theorem Stops.cons {c : Char} (h : isNumeral c = false) (rest : List Char) : Stops (c :: rest) := by
  intro d hd
  cases hd
  exact h

theorem isNumeral_of_isDigit {c : Char} (h : c.isDigit = true) : isNumeral c = true := by
  simp [isNumeral, h]

theorem readWhole_eq_some {cs : List Char} {parts : List Char × List Char} :
    readWhole cs = some parts ↔
      digitsOf cs = parts ∧ parts.1 ≠ [] ∧ ∀ d ds, parts.1 ≠ '0' :: d :: ds := by
  obtain ⟨digits, left⟩ := parts
  unfold readWhole
  generalize digitsOf cs = found
  split
  · simp only [reduceCtorEq, Prod.mk.injEq, false_iff, not_and]
    rintro ⟨rfl, -⟩ h
    exact absurd rfl h
  · simp only [reduceCtorEq, Prod.mk.injEq, false_iff, not_and]
    rintro ⟨rfl, -⟩ - h
    exact absurd rfl (h _ _)
  · rename_i hempty hzero
    refine ⟨fun h => ?_, fun h => congrArg some h.1⟩
    obtain rfl := Option.some.inj h
    exact ⟨rfl, fun h => hempty left (Prod.ext h rfl), fun d ds h => hzero d ds left (Prod.ext h rfl)⟩

theorem readFraction_point (cs : List Char) :
    readFraction ('.' :: cs) = if (digitsOf cs).1 = [] then none else some (digitsOf cs) := by
  rw [readFraction]
  generalize digitsOf cs = found
  obtain ⟨digits, left⟩ := found
  cases digits <;> rfl

theorem readFraction_of_ne {cs : List Char} (h : ∀ rest, cs ≠ '.' :: rest) :
    readFraction cs = some ([], cs) := by
  unfold readFraction
  split
  · exact absurd rfl (h _)
  · rfl

theorem readExponentDigits_eq (cs : List Char) :
    readExponentDigits cs = if (digitsOf cs).1 = [] then none
      else some ((digitsOf cs).1.foldl (fun n d => n * 10 + (d.toNat - '0'.toNat)) 0,
        (digitsOf cs).2) := by
  unfold readExponentDigits
  generalize digitsOf cs = found
  obtain ⟨digits, left⟩ := found
  cases digits <;> rfl

theorem readNumber_of_ne {d : Char} (hd : d ≠ '-') (ds : List Char) :
    readNumber (d :: ds) = readUnsigned false (d :: ds) := by
  unfold readNumber
  split
  · rename_i heq
    cases heq
    exact absurd rfl hd
  · rfl

section
variable {rest : List Char} (hrest : Stops rest)
include hrest

theorem digitsOf_stops : digitsOf rest = ([], rest) := by
  cases rest with
  | nil => rfl
  | cons c rest =>
    have hc := hrest c rfl
    simp only [isNumeral, Bool.or_eq_false_iff] at hc
    simp [digitsOf, hc]

theorem digitsOf_append (cs : List Char) :
    digitsOf (cs ++ rest) = ((digitsOf cs).1, (digitsOf cs).2 ++ rest) := by
  induction cs with
  | nil => exact digitsOf_stops hrest
  | cons c cs ih =>
    simp only [digitsOf, Prod.mk.injEq] at ih
    by_cases hc : c.isDigit = true
    · simp [digitsOf, hc, ih]
    · simp [digitsOf, hc]

theorem readWhole_append {cs digits left : List Char} (h : readWhole cs = some (digits, left)) :
    readWhole (cs ++ rest) = some (digits, left ++ rest) := by
  obtain ⟨he, hok⟩ := readWhole_eq_some.1 h
  refine readWhole_eq_some.2 ⟨?_, hok⟩
  rw [digitsOf_append hrest, he]

theorem readFraction_append {cs digits left : List Char}
    (h : readFraction cs = some (digits, left)) :
    readFraction (cs ++ rest) = some (digits, left ++ rest) := by
  by_cases hpoint : ∃ cs', cs = '.' :: cs'
  · obtain ⟨cs', rfl⟩ := hpoint
    rw [readFraction_point] at h
    rw [List.cons_append, readFraction_point, digitsOf_append hrest]
    split at h
    · cases h
    · rename_i hempty
      rw [if_neg hempty, Option.some.inj h]
  · have hne : ∀ cs', cs ≠ '.' :: cs' := fun cs' hcs => hpoint ⟨cs', hcs⟩
    rw [readFraction_of_ne hne] at h
    cases h
    refine readFraction_of_ne fun cs' hcs => ?_
    cases cs with
    | nil =>
      have hdot := hrest '.' (by rw [show rest = '.' :: cs' from hcs]; rfl)
      exact absurd hdot (by decide)
    | cons c cs => exact hne cs (by cases hcs; rfl)

theorem readExponentDigits_append {cs left : List Char} {n : Nat}
    (h : readExponentDigits cs = some (n, left)) :
    readExponentDigits (cs ++ rest) = some (n, left ++ rest) := by
  rw [readExponentDigits_eq] at h ⊢
  rw [digitsOf_append hrest]
  split at h
  · cases h
  · rename_i hempty
    cases h
    rw [if_neg hempty]

theorem readExponent_append {cs left : List Char} {exponent : Option Int}
    (h : readExponent cs = some (exponent, left)) :
    readExponent (cs ++ rest) = some (exponent, left ++ rest) := by
  cases cs with
  | nil =>
    cases h
    cases rest with
    | nil => rfl
    | cons c rest =>
      have hc := hrest c rfl
      simp only [isNumeral, Bool.or_eq_false_iff, decide_eq_false_iff_not] at hc
      simp [readExponent, hc]
  | cons c cs =>
    by_cases hc : c = 'e' ∨ c = 'E'
    · simp only [List.cons_append, readExponent, if_pos hc] at h ⊢
      split at h
      · obtain ⟨⟨n, left'⟩, hn, he⟩ := Option.map_eq_some_iff.1 h
        cases he
        simp only [List.cons_append, readExponentDigits_append hrest hn, Option.map_some]
      · obtain ⟨⟨n, left'⟩, hn, he⟩ := Option.map_eq_some_iff.1 h
        cases he
        simp only [List.cons_append, readExponentDigits_append hrest hn, Option.map_some]
      · rename_i hminus hplus
        obtain ⟨⟨n, left'⟩, hn, he⟩ := Option.map_eq_some_iff.1 h
        cases he
        have hread := readExponentDigits_append hrest hn
        cases cs with
        | nil => cases hn
        | cons d ds =>
          split
          · rename_i heq
            cases heq
            exact absurd rfl (hminus ds)
          · rename_i heq
            cases heq
            exact absurd rfl (hplus ds)
          · rw [hread, Option.map_some]
    · simp only [List.cons_append, readExponent, if_neg hc, Option.some.injEq, Prod.mk.injEq] at h ⊢
      obtain ⟨rfl, rfl⟩ := h
      exact ⟨rfl, rfl⟩

theorem readUnsigned_append {negative : Bool} {cs left : List Char} {c : Content}
    (h : readUnsigned negative cs = some (c, left)) :
    readUnsigned negative (cs ++ rest) = some (c, left ++ rest) := by
  obtain ⟨⟨whole, cs₁⟩, hwhole, h⟩ := Option.bind_eq_some_iff.1 h
  obtain ⟨⟨fraction, cs₂⟩, hfraction, h⟩ := Option.bind_eq_some_iff.1 h
  obtain ⟨⟨exponent, cs₃⟩, hexponent, h⟩ := Option.bind_eq_some_iff.1 h
  obtain ⟨value, hvalue, h⟩ := Option.bind_eq_some_iff.1 h
  cases h
  simp only [readUnsigned, readWhole_append hrest hwhole, readFraction_append hrest hfraction,
    readExponent_append hrest hexponent, hvalue, Option.bind_eq_bind, Option.bind_some]

theorem readNumber_append {cs left : List Char} {c : Content}
    (h : readNumber cs = some (c, left)) : readNumber (cs ++ rest) = some (c, left ++ rest) := by
  cases cs with
  | nil => cases h
  | cons d ds =>
    by_cases hd : d = '-'
    · subst hd
      have hunsigned : readUnsigned true ds = some (c, left) := h
      exact readUnsigned_append hrest hunsigned
    · rw [readNumber_of_ne hd] at h
      rw [List.cons_append, readNumber_of_ne hd]
      exact readUnsigned_append hrest h

end

theorem digitsOf_suffix (cs : List Char) : (digitsOf cs).2 <:+ cs := List.dropWhile_suffix _

theorem readWhole_suffix {cs digits left : List Char} (h : readWhole cs = some (digits, left)) :
    left <:+ cs := by
  have he := (readWhole_eq_some.1 h).1
  have hsuffix := digitsOf_suffix cs
  rwa [he] at hsuffix

theorem readFraction_suffix {cs digits left : List Char}
    (h : readFraction cs = some (digits, left)) : left <:+ cs := by
  by_cases hpoint : ∃ cs', cs = '.' :: cs'
  · obtain ⟨cs', rfl⟩ := hpoint
    rw [readFraction_point] at h
    split at h
    · cases h
    · have hsuffix := digitsOf_suffix cs'
      rw [Option.some.inj h] at hsuffix
      exact hsuffix.trans (List.suffix_cons _ _)
  · rw [readFraction_of_ne fun cs' hcs => hpoint ⟨cs', hcs⟩] at h
    cases h
    exact List.suffix_refl _

theorem readExponentDigits_suffix {cs left : List Char} {n : Nat}
    (h : readExponentDigits cs = some (n, left)) : left <:+ cs := by
  rw [readExponentDigits_eq] at h
  split at h
  · cases h
  · cases h
    exact digitsOf_suffix cs

theorem readExponent_suffix {cs left : List Char} {exponent : Option Int}
    (h : readExponent cs = some (exponent, left)) : left <:+ cs := by
  unfold readExponent at h
  split at h
  · split at h
    · split at h <;>
        obtain ⟨⟨n, left'⟩, hn, he⟩ := Option.map_eq_some_iff.1 h <;> cases he <;>
        have hsuffix := readExponentDigits_suffix hn
      · exact (hsuffix.trans (List.suffix_cons _ _)).trans (List.suffix_cons _ _)
      · exact (hsuffix.trans (List.suffix_cons _ _)).trans (List.suffix_cons _ _)
      · exact hsuffix.trans (List.suffix_cons _ _)
    · cases h
      exact List.suffix_refl _
  · cases h
    exact List.suffix_refl _

theorem readUnsigned_suffix {negative : Bool} {cs left : List Char} {c : Content}
    (h : readUnsigned negative cs = some (c, left)) : left <:+ cs := by
  obtain ⟨⟨whole, cs₁⟩, hwhole, h⟩ := Option.bind_eq_some_iff.1 h
  obtain ⟨⟨fraction, cs₂⟩, hfraction, h⟩ := Option.bind_eq_some_iff.1 h
  obtain ⟨⟨exponent, cs₃⟩, hexponent, h⟩ := Option.bind_eq_some_iff.1 h
  obtain ⟨value, -, h⟩ := Option.bind_eq_some_iff.1 h
  cases h
  exact (readExponent_suffix hexponent).trans
    ((readFraction_suffix hfraction).trans (readWhole_suffix hwhole))

theorem readNumber_suffix {cs left : List Char} {c : Content}
    (h : readNumber cs = some (c, left)) : left <:+ cs := by
  unfold readNumber at h
  split at h
  · exact (readUnsigned_suffix h).trans (List.suffix_cons _ _)
  · exact readUnsigned_suffix h

theorem isDigit_decimalDigits (n : Nat) : ∀ c ∈ decimalDigits n, c.isDigit = true := fun _ hc =>
  Nat.isDigit_of_mem_toDigits (by decide) (by decide) hc

theorem isNumeral_decimalDigits (n : Nat) : ∀ c ∈ decimalDigits n, isNumeral c = true := fun c hc =>
  isNumeral_of_isDigit (isDigit_decimalDigits n c hc)

theorem digitsOf_digits {ds : List Char} (h : ∀ d ∈ ds, d.isDigit = true) :
    digitsOf ds = (ds, []) := by
  induction ds with
  | nil => rfl
  | cons d ds ih =>
    obtain ⟨hd, hds⟩ := List.forall_mem_cons.1 h
    have hrest := ih hds
    simp only [digitsOf, Prod.mk.injEq] at hrest
    simp [digitsOf, hd, hrest]

theorem head_decimalDigits {n : Nat} (h : 0 < n) : (decimalDigits n).head? ≠ some '0' := by
  unfold decimalDigits
  induction n using Nat.strongRecOn with
  | ind n ih =>
    rw [Nat.toDigits_eq_if (by decide)]
    split
    · simp only [List.head?_cons, ne_eq, Option.some.injEq, Nat.digitChar_eq_zero]
      omega
    · have htens := ih (n / 10) (by omega) (by omega)
      cases hdigits : Nat.toDigits 10 (n / 10) with
      | nil => exact absurd hdigits Nat.toDigits_ne_nil
      | cons d ds => rwa [hdigits] at htens

theorem readWhole_decimalDigits (n : Nat) {rest : List Char} (hrest : Stops rest) :
    readWhole (decimalDigits n ++ rest) = some (decimalDigits n, rest) := by
  have hdigits := digitsOf_digits (isDigit_decimalDigits n)
  refine readWhole_eq_some.2 ⟨?_, Nat.toDigits_ne_nil, fun d ds hzero => ?_⟩
  · rw [digitsOf_append hrest, hdigits, List.nil_append]
  · cases n with
    | zero => cases hzero
    | succ n =>
      refine head_decimalDigits (Nat.succ_pos n) ?_
      change decimalDigits (n + 1) = _ at hzero
      rw [hzero]
      rfl

theorem le_ofDigitChars (ds : List Char) (n : Nat) : n ≤ Nat.ofDigitChars 10 ds n := by
  induction ds generalizing n with
  | nil => exact Nat.le_refl n
  | cons d ds ih =>
    rw [Nat.ofDigitChars_cons]
    exact Nat.le_trans (by omega) (ih _)

theorem takeDigits_eq {ds : List Char} {n : Nat} (h : Nat.ofDigitChars 10 ds n < 2 ^ 64) :
    takeDigits n ds = (Nat.ofDigitChars 10 ds n, []) := by
  induction ds generalizing n with
  | nil => rfl
  | cons d ds ih =>
    rw [Nat.ofDigitChars_cons, Nat.mul_comm] at h ⊢
    have hnext : n * 10 + (d.toNat - '0'.toNat) < 2 ^ 64 :=
      Nat.lt_of_le_of_lt (le_ofDigitChars ds _) h
    simp only [takeDigits, Nat.pow_eq, if_pos hnext]
    exact ih h

theorem numberOf_decimalDigits {n : Nat} (h : n < 2 ^ 64) (negative : Bool) :
    numberOf negative (decimalDigits n) [] none =
      if negative then
        if n = 0 ∨ 2 ^ 63 < n then some (.float (Binary64.ofNat n).neg) else some (.int (-(n : Int)))
      else some (.int n) := by
  have htaken : takeDigits 0 (decimalDigits n) = (n, []) := by
    have hn : Nat.ofDigitChars 10 (decimalDigits n) 0 = n := Nat.ofDigitChars_ten_toDigits
    rw [takeDigits_eq (hn.symm ▸ h), hn]
  have hnil : takeDigits n [] = (n, []) := by rw [takeDigits]
  cases negative <;> simp [numberOf, htaken, hnil, Nat.pow_eq]

theorem readUnsigned_decimalDigits {n : Nat} {negative : Bool} {value : Content}
    (hvalue : numberOf negative (decimalDigits n) [] none = some value) {rest : List Char}
    (hrest : Stops rest) : readUnsigned negative (decimalDigits n ++ rest) = some (value, rest) := by
  have hfraction : readFraction ([] ++ rest) = some ([], [] ++ rest) :=
    readFraction_append hrest rfl
  have hexponent : readExponent ([] ++ rest) = some (none, [] ++ rest) :=
    readExponent_append hrest rfl
  rw [List.nil_append] at hfraction hexponent
  simp only [readUnsigned, readWhole_decimalDigits n hrest, hfraction, hexponent, hvalue,
    Option.bind_eq_bind, Option.bind_some]

def IntFits (n : Int) : Prop := -2 ^ 63 ≤ n ∧ n < 2 ^ 64

instance (n : Int) : Decidable (IntFits n) := inferInstanceAs (Decidable (_ ∧ _))

theorem readNumber_renderInt {n : Int} (h : IntFits n) {rest : List Char} (hrest : Stops rest) :
    readNumber (renderInt n ++ rest) = some (.int n, rest) := by
  obtain ⟨hlow, hhigh⟩ := h
  cases n with
  | ofNat n =>
    have hn : n < 2 ^ 64 := by
      have : ((n : Nat) : Int) < 2 ^ 64 := hhigh
      omega
    have hread : readUnsigned false (decimalDigits n ++ rest) = some (.int n, rest) :=
      readUnsigned_decimalDigits (numberOf_decimalDigits hn false) hrest
    change readNumber (decimalDigits n ++ rest) = _
    cases hdigits : decimalDigits n with
    | nil => exact absurd hdigits Nat.toDigits_ne_nil
    | cons d ds =>
      have hd := isDigit_decimalDigits n d (hdigits ▸ List.mem_cons_self)
      rw [hdigits] at hread
      rw [List.cons_append, readNumber_of_ne (by rintro rfl; exact absurd hd (by decide))]
      exact hread
  | negSucc n =>
    have hn : n + 1 ≤ 2 ^ 63 := by omega
    have hvalue : numberOf true (decimalDigits (n + 1)) [] none = some (.int (Int.negSucc n)) := by
      rw [numberOf_decimalDigits (by omega), if_pos rfl, if_neg (by omega)]
      rfl
    exact readUnsigned_decimalDigits hvalue hrest

end RoomSync.Content
