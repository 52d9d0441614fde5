import RoomSync.Binary64
import RoomSync.Table

namespace RoomSync

/-- The content of a record: a JSON value. Integers and floating-point numbers are different values,
and the fields of an object are kept in ascending order of their names. -/
inductive Content where
  | null
  | bool (value : Bool)
  | int (value : Int)
  | float (value : Binary64)
  | text (value : String)
  | array (items : List Content)
  | object (fields : List (String × Content))
deriving Repr, Inhabited

namespace Content

mutual

def agree (floats : Binary64 → Binary64 → Bool) : Content → Content → Bool
  | .null, .null => true
  | .bool a, .bool b => a = b
  | .int a, .int b => a = b
  | .float a, .float b => floats a b
  | .text a, .text b => a = b
  | .array a, .array b => agreeItems floats a b
  | .object a, .object b => agreeFields floats a b
  | _, _ => false

def agreeItems (floats : Binary64 → Binary64 → Bool) : List Content → List Content → Bool
  | [], [] => true
  | a :: as, b :: bs => agree floats a b && agreeItems floats as bs
  | _, _ => false

def agreeFields (floats : Binary64 → Binary64 → Bool) :
    List (String × Content) → List (String × Content) → Bool
  | [], [] => true
  | (k, a) :: as, (l, b) :: bs => k = l && agree floats a b && agreeFields floats as bs
  | _, _ => false

end

/-- Equality of values: the two floating-point zeros are the same, and an integer is never the
same as a floating-point number. -/
def same : Content → Content → Bool := agree Binary64.same

mutual

theorem agree_eq_iff : ∀ a b : Content, agree (fun x y => x = y) a b = true ↔ a = b
  | .null, b => by cases b <;> simp [agree]
  | .bool _, b => by cases b <;> simp [agree]
  | .int _, b => by cases b <;> simp [agree]
  | .float _, b => by cases b <;> simp [agree]
  | .text _, b => by cases b <;> simp [agree]
  | .array as, b => by cases b <;> simp [agree, agreeItems_eq_iff as]
  | .object as, b => by cases b <;> simp [agree, agreeFields_eq_iff as]

theorem agreeItems_eq_iff :
    ∀ as bs : List Content, agreeItems (fun x y => x = y) as bs = true ↔ as = bs
  | [], bs => by cases bs <;> simp [agreeItems]
  | a :: as, bs => by cases bs <;> simp [agreeItems, agree_eq_iff a, agreeItems_eq_iff as]

theorem agreeFields_eq_iff :
    ∀ as bs : List (String × Content), agreeFields (fun x y => x = y) as bs = true ↔ as = bs
  | [], bs => by cases bs <;> simp [agreeFields]
  | (_, a) :: as, bs => by
    cases bs <;>
      simp [agreeFields, agree_eq_iff a, agreeFields_eq_iff as, Prod.ext_iff, and_assoc]

end

instance : DecidableEq Content := fun a b => decidable_of_iff _ (agree_eq_iff a b)

mutual

theorem agree_refl {floats : Binary64 → Binary64 → Bool} (h : ∀ x, floats x x = true) :
    ∀ a : Content, a.agree floats a = true
  | .null => rfl
  | .bool _ => by simp [agree]
  | .int _ => by simp [agree]
  | .float x => by simp [agree, h x]
  | .text _ => by simp [agree]
  | .array items => by simp [agree, agreeItems_refl h items]
  | .object fields => by simp [agree, agreeFields_refl h fields]

theorem agreeItems_refl {floats : Binary64 → Binary64 → Bool}
    (h : ∀ x, floats x x = true) :
    ∀ items : List Content, agreeItems floats items items = true
  | [] => rfl
  | a :: rest => by simp [agreeItems, agree_refl h a, agreeItems_refl h rest]

theorem agreeFields_refl {floats : Binary64 → Binary64 → Bool}
    (h : ∀ x, floats x x = true) :
    ∀ fields : List (String × Content), agreeFields floats fields fields = true
  | [] => rfl
  | (_, a) :: rest => by simp [agreeFields, agree_refl h a, agreeFields_refl h rest]

end

theorem same_refl (a : Content) : a.same a = true :=
  agree_refl (fun x => by simp [Binary64.same]) a

mutual

def depth : Content → Nat
  | .array items => depthItems items + 1
  | .object fields => depthFields fields + 1
  | _ => 0

def depthItems : List Content → Nat
  | [] => 0
  | a :: as => max (depth a) (depthItems as)

def depthFields : List (String × Content) → Nat
  | [] => 0
  | (_, a) :: as => max (depth a) (depthFields as)

end

/-- An object with the given fields; of two fields with one name the later one counts. -/
def ofFields (fields : List (String × Content)) : Content := .object (Table.ofList fields).entries

def field? (name : String) : Content → Option Content
  | .object fields => Entries.get? name fields
  | _ => none

end Content

end RoomSync
