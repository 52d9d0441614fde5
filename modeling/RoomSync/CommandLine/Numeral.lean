namespace RoomSync

inductive NumeralError where
  | empty
  | invalidDigit
  | tooLarge
  | tooSmall
  | outOfRange (number : Int) (greatest : Nat)
deriving DecidableEq, Repr, Inhabited

def NumeralError.message : NumeralError → String
  | .empty => "cannot parse integer from empty string"
  | .invalidDigit => "invalid digit found in string"
  | .tooLarge => "number too large to fit in target type"
  | .tooSmall => "number too small to fit in target type"
  | .outOfRange number greatest => s!"{number} is not in 0..={greatest}"

namespace Numeral

def digit? (c : Char) : Option Nat := if c.isDigit then some (c.toNat - '0'.toNat) else none

/-- Read digits after those that make up a number already. The first digit that is none, or that
takes the number beyond the limit, decides about the error. -/
def digits (limit : Nat) (overflow : NumeralError) (read : Nat) :
    List Char → Except NumeralError Nat
  | [] => .ok read
  | c :: rest =>
    match digit? c with
    | none => .error .invalidDigit
    | some d =>
      let read := 10 * read + d
      if limit < read then .error overflow else digits limit overflow read rest

def greatestNatural : Nat := Nat.pow 2 64 - 1

def greatestInteger : Nat := Nat.pow 2 63 - 1

def greatestWord : Nat := Nat.pow 2 32 - 1

def natural (s : String) : Except NumeralError Nat :=
  match s.toList with
  | [] => .error .empty
  | ['+'] => .error .invalidDigit
  | '+' :: rest => digits greatestNatural .tooLarge 0 rest
  | cs => digits greatestNatural .tooLarge 0 cs

def integer (s : String) : Except NumeralError Int :=
  match s.toList with
  | [] => .error .empty
  | ['+'] | ['-'] => .error .invalidDigit
  | '-' :: rest => (digits (greatestInteger + 1) .tooSmall 0 rest).map fun n => -(n : Int)
  | '+' :: rest => (digits greatestInteger .tooLarge 0 rest).map Int.ofNat
  | cs => (digits greatestInteger .tooLarge 0 cs).map Int.ofNat

def word (s : String) : Except NumeralError Nat := do
  let n ← integer s
  if 0 ≤ n ∧ n ≤ greatestWord then .ok n.toNat else .error (.outOfRange n greatestWord)

end Numeral

end RoomSync
