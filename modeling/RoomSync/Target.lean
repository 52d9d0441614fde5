import RoomSync.Text.Pieces

namespace RoomSync

structure Target where
  path : String
  /-- What follows the first question mark. -/
  query : Option String
deriving DecidableEq, Repr, Inhabited

namespace Target

open Text (splitFirst?)

def isVisible (c : Char) : Bool := 0x20 < c.toNat && c.toNat ≠ 0x7F

def isPathChar (c : Char) : Bool := isVisible c && c ∉ ['<', '>', '\x60']

def isQueryChar (c : Char) : Bool := isVisible c && c ∉ ['<', '>', '"']

/-- What stands before the first of these marks goes on with the host's name. -/
def endsHost (c : Char) : Bool := c ∈ ['/', '?', '#']

/-- Split a target: the path goes up to the first question mark, the query from there to the first
number sign. What follows a number sign stays with the client. -/
def split (text : String) : Target :=
  let cs := (text.toList.dropWhile (!endsHost ·)).takeWhile (· ≠ '#')
  match splitFirst? '?' cs with
  | none => ⟨String.ofList cs, none⟩
  | some (path, query) => ⟨String.ofList path, some (String.ofList query)⟩

def isValid (t : Target) : Bool :=
  t.path.toList.all isPathChar && (t.query.getD "").toList.all isQueryChar

def ofText? (text : String) : Option Target :=
  let t := split text
  if t.isValid then some t else none

def text (t : Target) : String := t.path ++ t.query.elim "" ("?" ++ ·)

end Target

end RoomSync
