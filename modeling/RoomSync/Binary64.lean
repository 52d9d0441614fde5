namespace RoomSync

/-- The number `mantissa * 2 ^ exponent`, or its negation. Values made here have a mantissa below
`2 ^ 53`, an exponent from -1074 to 971, and a mantissa of at least `2 ^ 52` unless the exponent
is -1074, so each magnitude has one form. Zero has both signs. -/
structure Binary64 where
  negative : Bool
  mantissa : Nat
  exponent : Int
deriving DecidableEq, Repr, Inhabited

namespace Binary64

def zero : Binary64 := ⟨false, 0, -1074⟩

def isZero (x : Binary64) : Bool := x.mantissa = 0

def neg (x : Binary64) : Binary64 := { x with negative := !x.negative }

def same (x y : Binary64) : Bool := x = y || (x.isZero && y.isZero)

def scaled (num den : Nat) (exponent : Int) : Nat × Nat :=
  (num * Nat.pow 2 (-exponent).toNat, den * Nat.pow 2 exponent.toNat)

def roundHalfEven (num den : Nat) : Nat :=
  let q := num / den
  let twice := 2 * (num % den)
  if twice > den || (twice = den && q % 2 = 1) then q + 1 else q

def exponentOf (num den : Nat) : Int :=
  let guess : Int := (num.log2 : Int) - (den.log2 : Int) - 53
  let fraction := scaled num den guess
  max (-1074) (if fraction.1 / fraction.2 < Nat.pow 2 53 then guess else guess + 1)

/-- The value nearest to `num / den`, a half going to the even mantissa; `none` when it lies
beyond the largest finite value. -/
def nearest? (num den : Nat) : Option Binary64 :=
  if num = 0 then some zero
  else
    let exponent := exponentOf num den
    let fraction := scaled num den exponent
    let rounded := roundHalfEven fraction.1 fraction.2
    let result : Binary64 :=
      if rounded < Nat.pow 2 53 then ⟨false, rounded, exponent⟩
      else ⟨false, rounded / 2, exponent + 1⟩
    if result.exponent ≤ 971 then some result else none

def fraction (x : Binary64) : Nat × Nat :=
  (x.mantissa * Nat.pow 2 x.exponent.toNat, Nat.pow 2 (-x.exponent).toNat)

def ofNat (n : Nat) : Binary64 := (nearest? n 1).getD zero

def powerOfTen (e : Nat) : Binary64 := ofNat (Nat.pow 10 e)

def mul? (x y : Binary64) : Option Binary64 :=
  nearest? (x.fraction.1 * y.fraction.1) (x.fraction.2 * y.fraction.2)

def div? (x y : Binary64) : Option Binary64 :=
  nearest? (x.fraction.1 * y.fraction.2) (x.fraction.2 * y.fraction.1)

/-- Divide by the largest power of ten in range until the remaining exponent is in range, then by
that one. The budget bounds the number of steps. -/
def divPowersOfTen : Nat → Binary64 → Nat → Option Binary64
  | 0, _, _ => some zero
  | budget + 1, x, e =>
    if e ≤ 308 then x.div? (powerOfTen e)
    else if x.isZero then some zero
    else (x.div? (powerOfTen 308)).bind fun y => divPowersOfTen budget y (e - 308)

/-- Read `significand * 10 ^ exponent` in two roundings: the significand to the nearest value,
then one product or quotient with the nearest value to a power of ten. A magnitude out of range
is refused, one that is too small gives zero. -/
def ofScientific? (significand : Nat) (exponent : Int) : Option Binary64 :=
  let x := ofNat significand
  if exponent < 0 then divPowersOfTen 4 x (-exponent).toNat
  else if exponent ≤ 308 then x.mul? (powerOfTen exponent.toNat)
  else if x.isZero then some zero
  else none

def decimalLength (n : Nat) : Nat := (Nat.toDigits 10 n).length

def decimalExponent (num den : Nat) : Int :=
  if num ≥ den then (decimalLength (num / den) : Int) - 1
  else
    -- the first power of ten that lifts the fraction to at least one
    let guess := decimalLength (den / num)
    if num * Nat.pow 10 (guess - 1) ≥ den then 1 - (guess : Int) else -(guess : Int)

/-- Whether `digits * 10 ^ exponent` is nearer to the value than to every other one: it lies
between the midpoints to its neighbours, which count when the mantissa is even. -/
def readsBack (x : Binary64) (digits : Nat) (exponent : Int) : Bool :=
  -- everything in units of 2 ^ (exponent - 2) so that the midpoints are integers
  let unit := x.exponent - 2
  let num := digits * Nat.pow 10 exponent.toNat * Nat.pow 2 (-unit).toNat
  let den := Nat.pow 10 (-exponent).toNat * Nat.pow 2 unit.toNat
  let below := if x.mantissa = Nat.pow 2 52 && x.exponent > -1074 then 1 else 2
  let low := (4 * x.mantissa - below) * den
  let high := (4 * x.mantissa + 2) * den
  if x.mantissa % 2 = 0 then low ≤ num && num ≤ high else low < num && num < high

/-- The two neighbours of the value among the multiples of `10 ^ exponent`, the nearer one first;
of two equally near ones the even one is first. -/
def decimalNeighbours (x : Binary64) (exponent : Int) : Nat × Nat :=
  let num := x.fraction.1 * Nat.pow 10 (-exponent).toNat
  let den := x.fraction.2 * Nat.pow 10 exponent.toNat
  let q := num / den
  let near := roundHalfEven num den
  (near, if near = q then q + 1 else q)

def shortestFrom (x : Binary64) (first : Int) : Nat → Nat → Nat × Int
  | 0, count => ((x.decimalNeighbours (first - count)).1, first - count)
  | budget + 1, count =>
    let exponent := first - count
    let candidates := x.decimalNeighbours exponent
    if x.readsBack candidates.1 exponent then (candidates.1, exponent)
    else if x.readsBack candidates.2 exponent then (candidates.2, exponent)
    else shortestFrom x first budget (count + 1)

def shortest (x : Binary64) : Nat × Int :=
  shortestFrom x (decimalExponent x.fraction.1 x.fraction.2) 17 0

end Binary64

end RoomSync
