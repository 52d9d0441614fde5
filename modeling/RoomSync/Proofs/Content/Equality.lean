import RoomSync.Record

namespace RoomSync

namespace Binary64

theorem same_iff {x y : Binary64} :
    x.same y = true ↔ x = y ∨ (x.isZero = true ∧ y.isZero = true) := by
  simp [same]

theorem same_symm {x y : Binary64} (h : x.same y = true) : y.same x = true :=
  same_iff.2 ((same_iff.1 h).imp Eq.symm And.symm)

theorem same_trans {x y z : Binary64} (hxy : x.same y = true) (hyz : y.same z = true) :
    x.same z = true := by
  obtain rfl | ⟨hx, hy⟩ := same_iff.1 hxy
  · exact hyz
  · obtain rfl | ⟨-, hz⟩ := same_iff.1 hyz
    · exact hxy
    · exact same_iff.2 (.inr ⟨hx, hz⟩)

end Binary64

namespace Content

variable {floats : Binary64 → Binary64 → Bool}

mutual

theorem agree_symm (hfloats : ∀ x y, floats x y = true → floats y x = true) :
    ∀ {a b : Content}, a.agree floats b = true → b.agree floats a = true
  | .null, b, h => by cases b <;> simp_all [agree]
  | .bool _, b, h => by cases b <;> simp_all [agree]
  | .int _, b, h => by cases b <;> simp_all [agree]
  | .float _, b, h => by
    cases b <;> simp only [agree, Bool.false_eq_true] at h
    exact hfloats _ _ h
  | .text _, b, h => by cases b <;> simp_all [agree]
  | .array as, b, h => by
    cases b <;> simp only [agree, Bool.false_eq_true] at h
    exact agreeItems_symm hfloats h
  | .object as, b, h => by
    cases b <;> simp only [agree, Bool.false_eq_true] at h
    exact agreeFields_symm hfloats h

theorem agreeItems_symm (hfloats : ∀ x y, floats x y = true → floats y x = true) :
    ∀ {as bs : List Content}, agreeItems floats as bs = true → agreeItems floats bs as = true
  | [], bs, h => by cases bs <;> simp_all [agreeItems]
  | a :: as, bs, h => by
    cases bs <;> simp only [agreeItems, Bool.false_eq_true, Bool.and_eq_true] at h ⊢
    exact ⟨agree_symm hfloats h.1, agreeItems_symm hfloats h.2⟩

theorem agreeFields_symm (hfloats : ∀ x y, floats x y = true → floats y x = true) :
    ∀ {as bs : List (String × Content)},
      agreeFields floats as bs = true → agreeFields floats bs as = true
  | [], bs, h => by cases bs <;> simp_all [agreeFields]
  | (k, a) :: as, bs, h => by
    cases bs <;> simp only [agreeFields, Bool.false_eq_true, Bool.and_eq_true,
      decide_eq_true_eq] at h ⊢
    exact ⟨⟨h.1.1.symm, agree_symm hfloats h.1.2⟩, agreeFields_symm hfloats h.2⟩

end

mutual

theorem agree_trans
    (hfloats : ∀ x y z, floats x y = true → floats y z = true → floats x z = true) :
    ∀ {a b c : Content}, a.agree floats b = true → b.agree floats c = true →
      a.agree floats c = true
  | .null, b, c, hab, hbc => by
    cases b <;> simp only [agree, Bool.false_eq_true] at hab
    exact hbc
  | .bool _, b, c, hab, hbc => by
    cases b <;> simp only [agree, Bool.false_eq_true, decide_eq_true_eq] at hab
    exact hab ▸ hbc
  | .int _, b, c, hab, hbc => by
    cases b <;> simp only [agree, Bool.false_eq_true, decide_eq_true_eq] at hab
    exact hab ▸ hbc
  | .float _, b, c, hab, hbc => by
    cases b <;> simp only [agree, Bool.false_eq_true] at hab
    cases c <;> simp only [agree, Bool.false_eq_true] at hbc
    exact hfloats _ _ _ hab hbc
  | .text _, b, c, hab, hbc => by
    cases b <;> simp only [agree, Bool.false_eq_true, decide_eq_true_eq] at hab
    exact hab ▸ hbc
  | .array as, b, c, hab, hbc => by
    cases b <;> simp only [agree, Bool.false_eq_true] at hab
    cases c <;> simp only [agree, Bool.false_eq_true] at hbc
    exact agreeItems_trans hfloats hab hbc
  | .object as, b, c, hab, hbc => by
    cases b <;> simp only [agree, Bool.false_eq_true] at hab
    cases c <;> simp only [agree, Bool.false_eq_true] at hbc
    exact agreeFields_trans hfloats hab hbc

theorem agreeItems_trans
    (hfloats : ∀ x y z, floats x y = true → floats y z = true → floats x z = true) :
    ∀ {as bs cs : List Content}, agreeItems floats as bs = true →
      agreeItems floats bs cs = true → agreeItems floats as cs = true
  | [], bs, cs, hab, hbc => by
    cases bs <;> simp only [agreeItems, Bool.false_eq_true] at hab
    exact hbc
  | a :: as, bs, cs, hab, hbc => by
    cases bs <;> simp only [agreeItems, Bool.false_eq_true, Bool.and_eq_true] at hab
    cases cs <;> simp only [agreeItems, Bool.false_eq_true, Bool.and_eq_true] at hbc ⊢
    exact ⟨agree_trans hfloats hab.1 hbc.1, agreeItems_trans hfloats hab.2 hbc.2⟩

theorem agreeFields_trans
    (hfloats : ∀ x y z, floats x y = true → floats y z = true → floats x z = true) :
    ∀ {as bs cs : List (String × Content)}, agreeFields floats as bs = true →
      agreeFields floats bs cs = true → agreeFields floats as cs = true
  | [], bs, cs, hab, hbc => by
    cases bs <;> simp only [agreeFields, Bool.false_eq_true] at hab
    exact hbc
  | (k, a) :: as, bs, cs, hab, hbc => by
    cases bs <;> simp only [agreeFields, Bool.false_eq_true, Bool.and_eq_true,
      decide_eq_true_eq] at hab
    cases cs <;> simp only [agreeFields, Bool.false_eq_true, Bool.and_eq_true,
      decide_eq_true_eq] at hbc ⊢
    exact ⟨⟨hab.1.1.trans hbc.1.1, agree_trans hfloats hab.1.2 hbc.1.2⟩,
      agreeFields_trans hfloats hab.2 hbc.2⟩

end

theorem same_symm {a b : Content} (h : a.same b = true) : b.same a = true :=
  agree_symm (fun _ _ => Binary64.same_symm) h

theorem same_trans {a b c : Content} (hab : a.same b = true) (hbc : b.same c = true) :
    a.same c = true := by
  refine agree_trans ?_ hab hbc
  exact fun _ _ _ => Binary64.same_trans

end Content

namespace Record

def Same (r s : Record) : Prop := r.sameValue s.typeName s.content = true

theorem same_iff {r s : Record} :
    r.Same s ↔ r.typeName = s.typeName ∧ r.content.same s.content = true := by
  simp [Same, sameValue]

theorem Same.refl (r : Record) : r.Same r := same_iff.2 ⟨rfl, Content.same_refl r.content⟩

theorem Same.symm {r s : Record} (h : r.Same s) : s.Same r :=
  same_iff.2 ⟨(same_iff.1 h).1.symm, Content.same_symm (same_iff.1 h).2⟩

theorem Same.trans {r s u : Record} (h : r.Same s) (h' : s.Same u) : r.Same u :=
  same_iff.2 ⟨(same_iff.1 h).1.trans (same_iff.1 h').1,
    Content.same_trans (same_iff.1 h).2 (same_iff.1 h').2⟩

structure Equal (r s : Record) : Prop where
  id : r.id = s.id
  same : r.Same s
  stamp : r.stamp = s.stamp

/-- The same ids, and under each of them the same type and content: what two sets of records share
when only stamps tell them apart. -/
def SameValues (t u : Table Record) : Prop := ∀ id, Option.Rel Same (t.get? id) (u.get? id)

theorem SameValues.refl (t : Table Record) : SameValues t t := fun id => by
  cases t.get? id with
  | none => exact .none
  | some r => exact .some (Same.refl r)

theorem rel_symm {x y : Option Record} (h : Option.Rel Same x y) : Option.Rel Same y x := by
  cases h with
  | none => exact .none
  | some h => exact .some h.symm

theorem rel_trans {x y z : Option Record} (h : Option.Rel Same x y) (h' : Option.Rel Same y z) :
    Option.Rel Same x z := by
  cases h with
  | none => exact h'
  | some h =>
    cases h' with
    | some h' => exact .some (h.trans h')

theorem SameValues.symm {t u : Table Record} (h : SameValues t u) : SameValues u t :=
  fun id => rel_symm (h id)

theorem SameValues.trans {t u v : Table Record} (h : SameValues t u) (h' : SameValues u v) :
    SameValues t v := fun id => rel_trans (h id) (h' id)

end Record

end RoomSync
