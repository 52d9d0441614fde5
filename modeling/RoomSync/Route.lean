import RoomSync.Target

namespace RoomSync

structure Route where
  documentId : String
  sessionKey : String
deriving DecidableEq, Repr, Inhabited

inductive RouteError where
  | noDocument
  | nestedDocument
  | noSessionKey
deriving DecidableEq, Repr, Inhabited

def RouteError.message : RouteError → String
  | .noDocument => "missing document id"
  | .nestedDocument => "document id may not contain '/'"
  | .noSessionKey => "missing sessionKey"

namespace Route

open Text (splitFirst? pieces)

def keyName : String := "sessionKey"

/-- The value of the first piece of a query that gives the session key, even if it is empty. -/
def keyOf? (query : List Char) : Option (List Char) :=
  let pairs := (pieces '&' query).filterMap (splitFirst? '=')
  (pairs.find? fun pair => pair.1 = keyName.toList).map (·.2)

def parse (path : String) (query : Option String) : Except RouteError Route :=
  let document := path.toList.dropWhile (· = '/')
  if document = [] then .error .noDocument
  else if '/' ∈ document then .error .nestedDocument
  else
    match keyOf? (query.getD "").toList with
    | none | some [] => .error .noSessionKey
    | some key => .ok ⟨String.ofList document, String.ofList key⟩

def request (documentId sessionKey : String) : String :=
  "/" ++ documentId ++ "?" ++ keyName ++ "=" ++ sessionKey

def ofTarget (target : Target) : Except RouteError Route := parse target.path target.query

end Route

end RoomSync
