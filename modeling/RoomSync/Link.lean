import RoomSync.Wire

namespace RoomSync

inductive Frame where
  | binary (bytes : Wire.Bytes)
  | text (text : String)
  | ping (payload : Wire.Bytes)
  | pong (payload : Wire.Bytes)
  | close
deriving DecidableEq, Repr, Inhabited

structure Link where
  toServer : List Frame := []
  toClient : List Frame := []
  clientOpen : Bool := true
  serverOpen : Bool := true
deriving DecidableEq, Repr, Inhabited

namespace Link

/-- The client sends a frame, which is lost if nobody is there to take it. -/
def sendToServer (l : Link) (frame : Frame) : Link :=
  if l.serverOpen then { l with toServer := l.toServer ++ [frame] } else l

def sendToClient (l : Link) (frame : Frame) : Link :=
  if l.clientOpen then { l with toClient := l.toClient ++ [frame] } else l

def dropServer (l : Link) : Link := { l with serverOpen := false, toServer := [] }

def dropClient (l : Link) : Link := { l with clientOpen := false, toClient := [] }

def takeAtClient (l : Link) : Link × List Frame := ({ l with toClient := [] }, l.toClient)

def takeAtServer (l : Link) : Link × List Frame := ({ l with toServer := [] }, l.toServer)

end Link

end RoomSync
