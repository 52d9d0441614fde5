namespace RoomSync.Text.Terminal

inductive State where
  | ground
  /-- After the escape character. -/
  | escape
  /-- After an escape and at least one intermediate character. -/
  | escapeIntermediate
  /-- Before the final character of a control sequence. -/
  | control
  /-- In the head of a device control string, before all parameters. -/
  | device
  | deviceParameters
  | deviceIntermediate
  /-- In the body of a string that a string terminator ends. -/
  | string
  /-- In an operating system command, which a bell ends. -/
  | command
deriving DecidableEq, Repr, Inhabited

def isBlank (c : Char) : Bool := c ∈ ['\t', '\n', '\x0c', '\r']

def isControl (c : Char) : Bool := c.toNat < 0x20 || c.toNat = 0x7F

def isAscii (c : Char) : Bool := c.toNat < 0x80

def isIntermediate (c : Char) : Bool := 0x20 ≤ c.toNat && c.toNat < 0x30

def isFinal (c : Char) : Bool := 0x40 ≤ c.toNat && c.toNat < 0x7F

def endsEscape (c : Char) : Bool := 0x30 ≤ c.toNat && c.toNat < 0x7F

/-- The byte of the string terminator ends a string, even as a part of a longer character. -/
def endsString (c : Char) : Bool := !isAscii c && 0x9C ∈ (String.utf8EncodeChar c)

namespace State

def next (state : State) (c : Char) : State :=
  match state with
  | ground => ground
  | escape =>
    match c with
    | '[' => control
    | ']' => command
    | 'P' => device
    | 'X' | '^' | '_' => string
    | _ =>
      if isIntermediate c then escapeIntermediate else if endsEscape c then ground else escape
  | escapeIntermediate => if endsEscape c then ground else escapeIntermediate
  | control => if isFinal c then ground else control
  | device =>
    if isIntermediate c then deviceIntermediate
    else if isFinal c then string
    else if endsEscape c then deviceParameters
    else device
  | deviceParameters =>
    if isIntermediate c then deviceIntermediate
    else if isFinal c || c ∈ ['<', '=', '>', '?'] then string
    else deviceParameters
  | deviceIntermediate => if endsEscape c then string else deviceIntermediate
  | string => if endsString c then ground else string
  | command => if c = '\x07' then ground else command

/-- Whether white space inside the sequence is obeyed, and not taken as a part of it. -/
def obeysBlanks : State → Bool
  | escape | escapeIntermediate | control => true
  | ground | device | deviceParameters | deviceIntermediate | string | command => false

end State

structure Reading where
  state : State := .ground
  /-- White space has come inside the sequence, which goes on after the next control. -/
  paused : Bool := false
deriving DecidableEq, Repr, Inhabited

namespace Reading

def next (r : Reading) (c : Char) : Reading × Bool :=
  if c = '\x1b' then ({ state := .escape }, false)
  else if c = '\x18' || c = '\x1a' then ({}, false)
  else if r.paused || r.state = .ground then
    if isBlank c then (r, true)
    else if isControl c then ({ r with paused := false }, false)
    else (if isAscii c then r else {}, true)
  else if r.state.obeysBlanks && isBlank c then ({ r with paused := true }, true)
  else ({ r with state := r.state.next c }, false)

def plain (r : Reading) : List Char → List Char
  | [] => []
  | c :: rest =>
    match r.next c with
    | (r, true) => c :: r.plain rest
    | (r, false) => r.plain rest

end Reading

/-- The text as it is written to a file. -/
def plain (text : String) : String := String.ofList (Reading.plain {} text.toList)

def bold (text : String) : String := "\x1b[1m" ++ text ++ "\x1b[0m"

def firstLine (text : String) : String :=
  let line := text.toList.takeWhile (· ≠ '\n')
  String.ofList (if line.getLast? = some '\r' then line.dropLast else line)

end RoomSync.Text.Terminal
