import RoomSync.CommandLine.Numeral
import RoomSync.CommandLine.TypeArgument
import RoomSync.Server
import RoomSync.Text.Quoted
import RoomSync.Text.Terminal

namespace RoomSync

open Text.Terminal (bold firstLine plain)

inductive Flag where
  | bind
  | schemaVersion
  | minSchemaVersion
  | recordType
  | maxSessions
  | tickMs
  | verbose
  | help
  | version
deriving DecidableEq, Repr, Inhabited

namespace Flag

def all : List Flag :=
  [.bind, .schemaVersion, .minSchemaVersion, .recordType, .maxSessions, .tickMs, .verbose, .help,
    .version]

def name : Flag → String
  | .bind => "bind"
  | .schemaVersion => "schema-version"
  | .minSchemaVersion => "min-schema-version"
  | .recordType => "record-type"
  | .maxSessions => "max-sessions"
  | .tickMs => "tick-ms"
  | .verbose => "verbose"
  | .help => "help"
  | .version => "version"

def valueName? : Flag → Option String
  | .bind => some "BIND"
  | .schemaVersion => some "SCHEMA_VERSION"
  | .minSchemaVersion => some "MIN_SCHEMA_VERSION"
  | .recordType => some "NAME[:FIELD=KIND,...]"
  | .maxSessions => some "MAX_SESSIONS"
  | .tickMs => some "TICK_MS"
  | .verbose | .help | .version => none

def takesValue (f : Flag) : Bool := f.valueName?.isSome

def usage (f : Flag) : String :=
  match f.valueName? with
  | some value => s!"--{f.name} <{value}>"
  | none => s!"--{f.name}"

def ofName? (s : String) : Option Flag := all.find? fun f => f.name = s

def ofLetter? : Char → Option Flag
  | 'h' => some .help
  | 'V' => some .version
  | _ => none

end Flag

inductive ValueError where
  | numeral (error : NumeralError)
  | recordType (error : TypeArgumentError)
deriving DecidableEq, Repr, Inhabited

def ValueError.message : ValueError → String
  | .numeral error => error.message
  | .recordType error => error.message

inductive UsageError where
  | unexpectedArgument (argument : String)
  | unexpectedValue (value : String) (flag : Flag)
  | repeated (flag : Flag)
  | missingValue (flag : Flag)
  | invalidValue (value : String) (flag : Flag) (reason : ValueError)
deriving DecidableEq, Repr, Inhabited

def UsageError.shown : UsageError → String
  | .unexpectedArgument argument => s!"unexpected argument '{bold argument}' found"
  | .unexpectedValue value flag =>
    s!"unexpected value '{bold value}' for '{bold flag.usage}' found; no more were expected"
  | .repeated flag => s!"the argument '{bold flag.usage}' cannot be used multiple times"
  | .missingValue flag =>
    s!"a value is required for '{bold flag.usage}' but none was supplied"
  | .invalidValue value flag reason =>
    s!"invalid value '{bold value}' for '{bold flag.usage}': {reason.message}"

/-- What is written about a refused command line if nobody sits at a terminal. A value may hold
controls of its own, and one that does not end takes away what follows it. -/
def UsageError.report (e : UsageError) : String :=
  let hint := "For more information, try '" ++ bold "--help" ++ "'.\n"
  plain (bold "error:" ++ " " ++ e.shown ++ "\n\n" ++ hint)

def UsageError.message (e : UsageError) : String := firstLine e.report

structure Settings where
  bind : Option String := none
  schemaVersion : Option Nat := none
  minSchemaVersion : Option Nat := none
  recordTypes : List RecordType := []
  maxSessions : Option Nat := none
  tickMs : Option Nat := none
  verbose : Bool := false
deriving DecidableEq, Inhabited

inductive Interruption where
  | usage (error : UsageError)
  | help
  | version
deriving DecidableEq, Repr, Inhabited

namespace Settings

def has (s : Settings) : Flag → Bool
  | .bind => s.bind.isSome
  | .schemaVersion => s.schemaVersion.isSome
  | .minSchemaVersion => s.minSchemaVersion.isSome
  | .maxSessions => s.maxSessions.isSome
  | .tickMs => s.tickMs.isSome
  | .verbose => s.verbose
  | .recordType | .help | .version => false

def assign (s : Settings) (flag : Flag) (value : String) : Except ValueError Settings :=
  let number (read : String → Except NumeralError Nat) (store : Nat → Settings) :=
    match read value with
    | .ok n => .ok (store n)
    | .error error => .error (.numeral error)
  match flag with
  | .bind => .ok { s with bind := some value }
  | .schemaVersion => number Numeral.word fun n => { s with schemaVersion := some n }
  | .minSchemaVersion => number Numeral.word fun n => { s with minSchemaVersion := some n }
  | .maxSessions => number Numeral.natural fun n => { s with maxSessions := some n }
  | .tickMs => number Numeral.natural fun n => { s with tickMs := some n }
  | .recordType =>
    match RecordType.ofArgument value with
    | .ok t => .ok { s with recordTypes := s.recordTypes ++ [t] }
    | .error error => .error (.recordType error)
  | .verbose | .help | .version => .ok s

def take (s : Settings) (flag : Flag) (value : String) : Except Interruption Settings :=
  if s.has flag then .error (.usage (.repeated flag))
  else
    match s.assign flag value with
    | .ok s => .ok s
    | .error reason => .error (.usage (.invalidValue value flag reason))

def raise (s : Settings) : Flag → Except Interruption Settings
  | .help => .error .help
  | .version => .error .version
  | flag =>
    if s.has flag then .error (.usage (.repeated flag)) else .ok { s with verbose := true }

end Settings

inductive Word where
  | endOfFlags
  | long (name : String) (value : Option String)
  | short (letter : Char)
  | plain (text : String)
deriving DecidableEq, Repr, Inhabited

def Word.ofArgument (argument : String) : Word :=
  match argument.toList with
  | ['-', '-'] => .endOfFlags
  | '-' :: '-' :: rest =>
    match Text.splitFirst? '=' rest with
    | some (name, value) => .long (String.ofList name) (some (String.ofList value))
    | none => .long (String.ofList rest) none
  | '-' :: letter :: _ => .short letter
  | _ => .plain argument

/-- A flag that was read, and the value after it once that was read too. The value is looked at
when the next flag comes, so that an argument that belongs nowhere is reported first. -/
structure OpenFlag where
  flag : Flag
  value : Option String
deriving DecidableEq, Repr, Inhabited

def Settings.resolve (s : Settings) : Option OpenFlag → Except Interruption Settings
  | none => .ok s
  | some ⟨flag, none⟩ => .error (.usage (.missingValue flag))
  | some ⟨flag, some value⟩ => s.take flag value

namespace CommandLine

def readFrom (s : Settings) (pending : Option OpenFlag) :
    List String → Except Interruption Settings
  | [] => s.resolve pending
  | argument :: rest =>
    match Word.ofArgument argument with
    | .endOfFlags =>
      match rest with
      | [] => s.resolve pending
      | extra :: _ => .error (.usage (.unexpectedArgument extra))
    | .long name value =>
      match Flag.ofName? name, value with
      | none, _ => .error (.usage (.unexpectedArgument ("--" ++ name)))
      | some flag, some value =>
        if flag.takesValue then do
          let s ← s.resolve pending
          readFrom (← s.take flag value) none rest
        else .error (.usage (.unexpectedValue value flag))
      | some flag, none => do
        let s ← s.resolve pending
        if flag.takesValue then readFrom s (some ⟨flag, none⟩) rest
        else readFrom (← s.raise flag) none rest
    | .short letter =>
      match Flag.ofLetter? letter with
      | none => .error (.usage (.unexpectedArgument ("-" ++ letter.toString)))
      | some flag => do
        let s ← s.resolve pending
        readFrom (← s.raise flag) none rest
    | .plain text =>
      match pending with
      | some ⟨flag, none⟩ => readFrom s (some ⟨flag, some text⟩) rest
      | _ => .error (.usage (.unexpectedArgument text))

def read (arguments : List String) : Except Interruption Settings := readFrom {} none arguments

end CommandLine

namespace Settings

def version (s : Settings) : Nat := s.schemaVersion.getD 1

/-- The schema, in which a later record type replaces an earlier one of the same name. -/
def schema (s : Settings) : Schema :=
  s.recordTypes.foldl Schema.withType
    { Schema.base s.version with minVersion := s.minSchemaVersion.getD s.version }

/-- The settings of the server. The address of the environment counts if none was given. -/
def serverConfig (s : Settings) (environmentBind : Option String) : ServerConfig :=
  let base : ServerConfig := {}
  { base with
    bindAddress := (s.bind.orElse fun _ => environmentBind).getD base.bindAddress
    tickInterval := max (s.tickMs.getD base.tickInterval) 1
    room := { base.room with
      schema := s.schema
      maxSessions := s.maxSessions.getD base.room.maxSessions } }

def greeting (s : Settings) : String :=
  let names := Text.quotedList (s.recordTypes.map (·.name))
  s!"Starting tandem server (schema v{s.version}, record types: {names})"

end Settings

namespace CommandLine

def versionLine : String := "tandem-server 0.1.0"

def about (environmentBind : Option String) : Flag → String
  | .bind =>
    let environment := "TANDEM_BIND=" ++ environmentBind.getD ""
    s!"Address to listen on [env: {environment}] [default: 127.0.0.1:9090]"
  | .schemaVersion => "Schema version this server speaks [default: 1]"
  | .minSchemaVersion => "Oldest client schema version still accepted"
  | .recordType => "Document record type to accept, with optional required fields (repeatable)"
  | .maxSessions => "Connected sessions allowed per room [default: 100]"
  | .tickMs => "Room sweep interval in milliseconds [default: 16]"
  | .verbose => "Enable debug logging"
  | .help => "Print help"
  | .version => "Print version"

def letter : Flag → String
  | .help => "  -h, "
  | .version => "  -V, "
  | _ => "      "

def helpLines (environmentBind : Option String) : List String :=
  ["Real-time multiplayer sync rooms", "", "Usage: tandem-server [OPTIONS]", "", "Options:"] ++
    Flag.all.flatMap fun flag =>
      [letter flag ++ flag.usage, "          " ++ about environmentBind flag]

def printed (environmentBind : Option String) : Interruption → List String
  | .usage _ => []
  | .help => helpLines environmentBind
  | .version => [versionLine]

end CommandLine

end RoomSync
