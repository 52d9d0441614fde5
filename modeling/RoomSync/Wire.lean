import RoomSync.Table

namespace RoomSync.Wire

abbrev Bytes := List UInt8

abbrev Reader (α : Type) := StateT Bytes Option α

variable {α β : Type}

def readByte : Reader UInt8
  | [] => none
  | b :: rest => some (b, rest)

def readBytes (count : Nat) : Reader Bytes := fun bytes =>
  let taken := bytes.take count
  if taken.length = count then some (taken, bytes.drop count) else none

def writeFixed : Nat → Nat → Bytes
  | 0, _ => []
  | count + 1, n => UInt8.ofNat n :: writeFixed count (n / 256)

def readFixed : Nat → Reader Nat
  | 0 => pure 0
  | count + 1 => do
    let low ← readByte
    let high ← readFixed count
    pure (low.toNat + 256 * high)

def writeNat (n : Nat) : Bytes :=
  if n ≤ 250 then [UInt8.ofNat n]
  else if n < Nat.pow 2 16 then 251 :: writeFixed 2 n
  else if n < Nat.pow 2 32 then 252 :: writeFixed 4 n
  else 253 :: writeFixed 8 n

/-- A number of at most `width` bytes. A longer form than needed is accepted. -/
def readNat (width : Nat) : Reader Nat := do
  let first ← readByte
  if first ≤ 250 then pure first.toNat
  else if first = 251 then readFixed 2
  else if first = 252 then readFixed 4
  else if first = 253 ∧ width = 8 then readFixed 8
  else failure

def read32 : Reader Nat := readNat 4

def read64 : Reader Nat := readNat 8

def writeBool (b : Bool) : Bytes := [if b then 1 else 0]

def readBool : Reader Bool := do
  let b ← readByte
  if b = 0 then pure false else if b = 1 then pure true else failure

def writeOption (write : α → Bytes) : Option α → Bytes
  | none => [0]
  | some a => 1 :: write a

def readOption (read : Reader α) : Reader (Option α) := do
  if ← readBool then some <$> read else pure none

def writeText (s : String) : Bytes := writeNat s.toUTF8.size ++ s.toUTF8.data.toList

def readText : Reader String := do
  let bytes ← readBytes (← read64)
  match String.fromUTF8? ⟨bytes.toArray⟩ with
  | some s => pure s
  | none => failure

def writeList (write : α → Bytes) (items : List α) : Bytes :=
  writeNat items.length ++ items.flatMap write

def readItems (read : Reader α) : Nat → Reader (List α)
  | 0 => pure []
  | count + 1 => do
    let a ← read
    let rest ← readItems read count
    pure (a :: rest)

def readList (read : Reader α) : Reader (List α) := do readItems read (← read64)

def writeTable (write : α → Bytes) (t : Table α) : Bytes :=
  writeList (fun e => writeText e.1 ++ write e.2) t.entries

def readEntry (read : Reader α) : Reader (String × α) := do
  let key ← readText
  let value ← read
  pure (key, value)

/-- The entries may come in any order; of two entries with one key the later one counts. -/
def readTable (read : Reader α) : Reader (Table α) := Table.ofList <$> readList (readEntry read)

end RoomSync.Wire
