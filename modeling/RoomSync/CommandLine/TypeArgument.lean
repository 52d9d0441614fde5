import RoomSync.Schema
import RoomSync.Text.Pieces

namespace RoomSync

open Text (splitFirst? pieces join)

inductive TypeArgumentError where
  | emptyName
  | noKind (field : String)
  | emptyFieldName (argument : String)
  | unknownKind (kind : String)
deriving DecidableEq, Repr, Inhabited

def TypeArgumentError.message : TypeArgumentError → String
  | .emptyName => "record type name must not be empty"
  | .noKind field => s!"field '{field}' must be written as FIELD=KIND"
  | .emptyFieldName argument => s!"empty field name in '{argument}'"
  | .unknownKind kind => FieldKind.unknownMessage kind

namespace Field

/-- Read one field of an argument; the name ends at the first equals sign. -/
def ofPiece (argument : String) (piece : List Char) : Except TypeArgumentError Field :=
  match splitFirst? '=' piece with
  | none => .error (.noKind (String.ofList piece))
  | some (name, kind) =>
    if name = [] then .error (.emptyFieldName argument)
    else
      match FieldKind.ofName? (String.ofList kind) with
      | none => .error (.unknownKind (String.ofList kind))
      | some kind => .ok ⟨String.ofList name, kind⟩

def toPiece (field : Field) : List Char := field.name.toList ++ '=' :: field.kind.name.toList

end Field

namespace RecordType

/-- Read an argument; the name ends at the first colon. -/
def ofArgument (argument : String) : Except TypeArgumentError RecordType :=
  let (name, fields) := match splitFirst? ':' argument.toList with
    | none => (argument.toList, none)
    | some (name, fields) => (name, some fields)
  if name = [] then .error .emptyName
  else
    match fields with
    | none => .ok (.document (String.ofList name))
    | some fields => do
      let fields ← (pieces ',' fields).mapM (Field.ofPiece argument)
      .ok { RecordType.document (String.ofList name) with fields }

def toArgument (t : RecordType) : String :=
  match t.fields with
  | [] => t.name
  | fields => String.ofList (t.name.toList ++ ':' :: join ',' (fields.map Field.toPiece))

end RecordType

end RoomSync
