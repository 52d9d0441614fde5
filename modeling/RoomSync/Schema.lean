import RoomSync.Record

namespace RoomSync

inductive FieldKind where
  | string
  | number
  | bool
  | object
  | array
  | any
deriving DecidableEq, Repr, Inhabited

namespace FieldKind

def admits : FieldKind → Content → Bool
  | .string, .text _ => true
  | .number, .int _ => true
  | .number, .float _ => true
  | .bool, .bool _ => true
  | .object, .object _ => true
  | .array, .array _ => true
  | .any, _ => true
  | _, _ => false

def name : FieldKind → String
  | .string => "string"
  | .number => "number"
  | .bool => "bool"
  | .object => "object"
  | .array => "array"
  | .any => "any"

def all : List FieldKind := [.string, .number, .bool, .object, .array, .any]

def ofName? (s : String) : Option FieldKind := all.find? fun kind => kind.name = s

def unknownMessage (s : String) : String :=
  s!"unknown field kind '{s}' (expected string, number, bool, object, array or any)"

theorem ofName?_name (kind : FieldKind) : ofName? kind.name = some kind := by
  cases kind <;> decide

theorem name_of_ofName? {s : String} {kind : FieldKind} (h : ofName? s = some kind) :
    kind.name = s := by
  simpa using List.find?_some h

end FieldKind

inductive Refusal where
  | unknownType (typeName : String)
  | wrongScope (typeName : String)
  | notAnObject
  | missingField (field : String)
  | wrongFieldKind (field : String) (expected : FieldKind)
  | emptyId
  | reservedId (id : RecordId)
deriving DecidableEq, Repr, Inhabited

def Refusal.message : Refusal → String
  | .unknownType typeName => s!"unknown record type: {typeName}"
  | .wrongScope typeName =>
    s!"record type '{typeName}' cannot be written through a document push"
  | .notAnObject => "record content must be a JSON object"
  | .missingField field => s!"missing required field '{field}'"
  | .wrongFieldKind field expected => s!"field '{field}' must be of kind {expected.name}"
  | .emptyId => "record id must not be empty"
  | .reservedId id => s!"record id '{id}' is a session's presence id"

/-- Whether records of a type belong to the shared document or to one session. -/
inductive Scope where
  | document
  | presence
deriving DecidableEq, Repr, Inhabited

structure Field where
  name : String
  kind : FieldKind
deriving DecidableEq, Repr, Inhabited

structure RecordType where
  name : String
  scope : Scope
  /-- The fields that a content must have, in the order in which they are checked. -/
  fields : List Field
deriving DecidableEq, Repr, Inhabited

namespace RecordType

def document (name : String) : RecordType := ⟨name, .document, []⟩

def presence : RecordType := ⟨presenceType, .presence, []⟩

def checkField (content : Content) (field : Field) : Except Refusal Unit :=
  match content.field? field.name with
  | none => .error (.missingField field.name)
  | some value =>
    if field.kind.admits value then .ok () else .error (.wrongFieldKind field.name field.kind)

/-- The content is an object that has every declared field in its kind; the first field that fails
is reported. -/
def check (t : RecordType) (content : Content) : Except Refusal Unit :=
  match content with
  | .object _ => t.fields.forM (checkField content)
  | _ => .error .notAnObject

end RecordType

inductive SchemaMismatch where
  | clientTooOld
  | serverTooOld
deriving DecidableEq, Repr, Inhabited

def SchemaMismatch.message : SchemaMismatch → String
  | .clientTooOld => "client schema too old"
  | .serverTooOld => "server schema too old"

structure SchemaSummary where
  version : Nat
  recordTypes : List String
deriving DecidableEq, Repr, Inhabited

structure Schema where
  version : Nat
  /-- The oldest client version that is still accepted. -/
  minVersion : Nat
  types : Table RecordType
deriving DecidableEq

namespace Schema

def withType (s : Schema) (t : RecordType) : Schema :=
  { s with types := s.types.insert t.name t }

def base (version : Nat) : Schema :=
  ⟨version, version, Table.empty.insert presenceType .presence⟩

instance : Inhabited Schema := ⟨base 1⟩

def summary (s : Schema) : SchemaSummary := ⟨s.version, s.types.keys⟩

def checkClient (s : Schema) (client : SchemaSummary) : Except SchemaMismatch Unit :=
  if client.version > s.version then .error .serverTooOld
  else if client.version < s.minVersion then .error .clientTooOld
  else .ok ()

def checkDocument (s : Schema) (id : RecordId) (typeName : String) (content : Content) :
    Except Refusal Unit :=
  if id = "" then .error .emptyId
  else
    match s.types.get? typeName with
    | none => .error (.unknownType typeName)
    | some t => if t.scope = .document then t.check content else .error (.wrongScope typeName)

def checkPresence (s : Schema) (content : Content) : Except Refusal Unit :=
  match s.types.get? presenceType with
  | none => .error (.unknownType presenceType)
  | some t => t.check content

end Schema

end RoomSync
