import RoomSync.Content

namespace RoomSync.Content

def maxDepth : Nat := 127

def isBlank (c : Char) : Bool := c = ' ' || c = '\t' || c = '\n' || c = '\r'

def skipBlanks (cs : List Char) : List Char := cs.dropWhile isBlank

def hexValue? (c : Char) : Option Nat :=
  if '0' ≤ c ∧ c ≤ '9' then some (c.toNat - '0'.toNat)
  else if 'a' ≤ c ∧ c ≤ 'f' then some (c.toNat - 'a'.toNat + 10)
  else if 'A' ≤ c ∧ c ≤ 'F' then some (c.toNat - 'A'.toNat + 10)
  else none

def readUnit : List Char → Option (Nat × List Char)
  | a :: b :: c :: d :: rest => do
    let a ← hexValue? a
    let b ← hexValue? b
    let c ← hexValue? c
    let d ← hexValue? d
    some (((a * 16 + b) * 16 + c) * 16 + d, rest)
  | _ => none

/-- The character of a numbered escape. A character beyond the sixteen-bit range is written as two
escapes in a row, the high half first; half of such a pair on its own is refused. -/
def readCodePoint (cs : List Char) : Option (Char × List Char) := do
  let (unit, rest) ← readUnit cs
  if 0xD800 ≤ unit ∧ unit < 0xDC00 then
    match rest with
    | '\\' :: 'u' :: rest =>
      let (low, rest) ← readUnit rest
      if 0xDC00 ≤ low ∧ low < 0xE000 then
        some (Char.ofNat (0x10000 + (unit - 0xD800) * 0x400 + (low - 0xDC00)), rest)
      else none
    | _ => none
  else if 0xDC00 ≤ unit ∧ unit < 0xE000 then none
  else some (Char.ofNat unit, rest)

def readEscape : List Char → Option (Char × List Char)
  | '"' :: rest => some ('"', rest)
  | '\\' :: rest => some ('\\', rest)
  | '/' :: rest => some ('/', rest)
  | 'b' :: rest => some ('\x08', rest)
  | 'f' :: rest => some ('\x0c', rest)
  | 'n' :: rest => some ('\n', rest)
  | 'r' :: rest => some ('\r', rest)
  | 't' :: rest => some ('\t', rest)
  | 'u' :: rest => readCodePoint rest
  | _ => none

/-- A string after its opening quote. Every step takes at least one character, so a budget of the
text's length is enough. -/
def readText : Nat → List Char → Option (List Char × List Char)
  | 0, _ => none
  | budget + 1, cs =>
    match cs with
    | '"' :: rest => some ([], rest)
    | '\\' :: rest => do
      let (c, rest) ← readEscape rest
      let (cs, rest) ← readText budget rest
      some (c :: cs, rest)
    | c :: rest =>
      if c.toNat < 0x20 then none
      else do
        let (cs, rest) ← readText budget rest
        some (c :: cs, rest)
    | [] => none

/-- Extend a significand by digits while it stays below `2 ^ 64`. -/
def takeDigits (significand : Nat) : List Char → Nat × List Char
  | [] => (significand, [])
  | d :: ds =>
    let next := significand * 10 + (d.toNat - '0'.toNat)
    if next < Nat.pow 2 64 then takeDigits next ds else (significand, d :: ds)

def digitsOf (cs : List Char) : List Char × List Char :=
  (cs.takeWhile Char.isDigit, cs.dropWhile Char.isDigit)

def readWhole (cs : List Char) : Option (List Char × List Char) :=
  match digitsOf cs with
  | ([], _) => none
  | ('0' :: _ :: _, _) => none
  | parts => some parts

def readFraction : List Char → Option (List Char × List Char)
  | '.' :: rest =>
    match digitsOf rest with
    | ([], _) => none
    | parts => some parts
  | cs => some ([], cs)

def readExponentDigits (cs : List Char) : Option (Nat × List Char) :=
  match digitsOf cs with
  | ([], _) => none
  | (digits, rest) => some (digits.foldl (fun n d => n * 10 + (d.toNat - '0'.toNat)) 0, rest)

def readExponent : List Char → Option (Option Int × List Char)
  | c :: rest =>
    if c = 'e' ∨ c = 'E' then
      match rest with
      | '-' :: rest => (readExponentDigits rest).map fun (n, rest) => (some (-(n : Int)), rest)
      | '+' :: rest => (readExponentDigits rest).map fun (n, rest) => (some (n : Int), rest)
      | rest => (readExponentDigits rest).map fun (n, rest) => (some (n : Int), rest)
    else some (none, c :: rest)
  | [] => some (none, [])

def signed (negative : Bool) (x : Binary64) : Binary64 := if negative then x.neg else x

/-- The value of a number. Digits that no longer fit into 64 bits are dropped: those of the integer
part raise the exponent, those of the fraction are ignored. A literal without fraction and exponent
is an integer if a 64-bit integer type holds it and it is not a negative zero. -/
def numberOf (negative : Bool) (whole fraction : List Char) (exponent : Option Int) :
    Option Content :=
  let (high, beyond) := takeDigits 0 whole
  let (significand, ignored) := takeDigits high fraction
  if fraction.isEmpty && exponent.isNone && beyond.isEmpty then
    if negative then
      if significand = 0 ∨ Nat.pow 2 63 < significand then
        some (.float (Binary64.ofNat significand).neg)
      else some (.int (-(significand : Int)))
    else some (.int significand)
  else
    let scale : Int :=
      (beyond.length : Int) - ((fraction.length : Int) - (ignored.length : Int)) + exponent.getD 0
    (Binary64.ofScientific? significand scale).map fun x => .float (signed negative x)

def readUnsigned (negative : Bool) (cs : List Char) : Option (Content × List Char) := do
  let (whole, cs) ← readWhole cs
  let (fraction, cs) ← readFraction cs
  let (exponent, cs) ← readExponent cs
  let value ← numberOf negative whole fraction exponent
  some (value, cs)

def readNumber : List Char → Option (Content × List Char)
  | '-' :: rest => readUnsigned true rest
  | cs => readUnsigned false cs

mutual

/-- A value after optional blanks. The budget bounds the number of nested calls, `depth` the
nesting that is still allowed. -/
def readValue : Nat → Nat → List Char → Option (Content × List Char)
  | 0, _, _ => none
  | budget + 1, depth, cs =>
    match skipBlanks cs with
    | 'n' :: 'u' :: 'l' :: 'l' :: rest => some (.null, rest)
    | 't' :: 'r' :: 'u' :: 'e' :: rest => some (.bool true, rest)
    | 'f' :: 'a' :: 'l' :: 's' :: 'e' :: rest => some (.bool false, rest)
    | '"' :: rest =>
      (readText (rest.length + 1) rest).map fun (s, rest) => (.text (String.ofList s), rest)
    | '[' :: rest =>
      if depth = 0 then none
      else
        match skipBlanks rest with
        | ']' :: rest => some (.array [], rest)
        | rest =>
          (readItems budget (depth - 1) rest).map fun (items, rest) => (.array items, rest)
    | '{' :: rest =>
      if depth = 0 then none
      else
        match skipBlanks rest with
        | '}' :: rest => some (.object [], rest)
        | rest =>
          (readFields budget (depth - 1) rest).map fun (fields, rest) => (ofFields fields, rest)
    | cs => readNumber cs

def readItems : Nat → Nat → List Char → Option (List Content × List Char)
  | 0, _, _ => none
  | budget + 1, depth, cs => do
    let (item, rest) ← readValue budget depth cs
    match skipBlanks rest with
    | ',' :: rest =>
      let (items, rest) ← readItems budget depth rest
      some (item :: items, rest)
    | ']' :: rest => some ([item], rest)
    | _ => none

def readFields : Nat → Nat → List Char → Option (List (String × Content) × List Char)
  | 0, _, _ => none
  | budget + 1, depth, cs =>
    match skipBlanks cs with
    | '"' :: rest => do
      let (name, rest) ← readText (rest.length + 1) rest
      match skipBlanks rest with
      | ':' :: rest =>
        let (value, rest) ← readValue budget depth rest
        match skipBlanks rest with
        | ',' :: rest =>
          let (fields, rest) ← readFields budget depth rest
          some ((String.ofList name, value) :: fields, rest)
        | '}' :: rest => some ([(String.ofList name, value)], rest)
        | _ => none
      | _ => none
    | _ => none

end

def read? (s : String) : Option Content := do
  let cs := s.toList
  let (value, rest) ← readValue (2 * cs.length + 2) maxDepth cs
  if skipBlanks rest = [] then some value else none

end RoomSync.Content
