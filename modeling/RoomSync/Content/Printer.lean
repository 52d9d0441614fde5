import RoomSync.Content

namespace RoomSync.Content

/-- Numbers are written positionally while the decimal exponent of their first digit lies in this
range. -/
def positionalRange : Int × Int := (-5, 15)

def decimalDigits (n : Nat) : List Char := Nat.toDigits 10 n

def trimZeros (digits : List Char) : List Char :=
  match (digits.reverse.dropWhile (· = '0')).reverse with
  | [] => ['0']
  | trimmed => trimmed

/-- Digits with a point after the first `count` of them, filled up with zeros. -/
def withPoint (digits : List Char) (count : Nat) : List Char :=
  let whole := digits.take count ++ List.replicate (count - digits.length) '0'
  let fraction := digits.drop count
  whole ++ '.' :: (if fraction.isEmpty then ['0'] else fraction)

def placeDigits (digits : List Char) (exponent : Int) : List Char :=
  if exponent < positionalRange.1 || positionalRange.2 < exponent then
    let sign := if exponent < 0 then '-' else '+'
    let tail := 'e' :: sign :: decimalDigits exponent.natAbs
    match digits with
    | first :: second :: rest => first :: '.' :: second :: rest ++ tail
    | digits => digits ++ tail
  else if exponent < 0 then
    '0' :: '.' :: List.replicate (-exponent - 1).toNat '0' ++ digits
  else withPoint digits (exponent.toNat + 1)

def renderMagnitude (x : Binary64) : List Char :=
  if x.isZero then ['0', '.', '0']
  else
    let scaled := x.shortest
    let digits := decimalDigits scaled.1
    placeDigits (trimZeros digits) (scaled.2 + digits.length - 1)

def renderFloat (x : Binary64) : List Char :=
  if x.negative then '-' :: renderMagnitude x else renderMagnitude x

def renderInt : Int → List Char
  | .ofNat n => decimalDigits n
  | .negSucc n => '-' :: decimalDigits (n + 1)

def hexDigit (n : Nat) : Char := (Nat.toDigits 16 (n % 16)).headD '0'

def escape (c : Char) : List Char :=
  if c = '"' then ['\\', '"']
  else if c = '\\' then ['\\', '\\']
  else if c = '\x08' then ['\\', 'b']
  else if c = '\x0c' then ['\\', 'f']
  else if c = '\n' then ['\\', 'n']
  else if c = '\r' then ['\\', 'r']
  else if c = '\t' then ['\\', 't']
  else if c.toNat < 0x20 then ['\\', 'u', '0', '0', hexDigit (c.toNat / 16), hexDigit c.toNat]
  else [c]

def renderText (s : String) : List Char := '"' :: s.toList.flatMap escape ++ ['"']

mutual

def render : Content → List Char
  | .null => ['n', 'u', 'l', 'l']
  | .bool true => ['t', 'r', 'u', 'e']
  | .bool false => ['f', 'a', 'l', 's', 'e']
  | .int n => renderInt n
  | .float x => renderFloat x
  | .text s => renderText s
  | .array items => '[' :: renderItems items ++ [']']
  | .object fields => '{' :: renderFields fields ++ ['}']

def renderItems : List Content → List Char
  | [] => []
  | [item] => render item
  | item :: rest => render item ++ ',' :: renderItems rest

def renderFields : List (String × Content) → List Char
  | [] => []
  | [(name, value)] => renderText name ++ ':' :: render value
  | (name, value) :: rest => renderText name ++ ':' :: render value ++ ',' :: renderFields rest

end

def print (c : Content) : String := String.ofList (render c)

end RoomSync.Content
