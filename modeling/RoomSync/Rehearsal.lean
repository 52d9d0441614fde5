import RoomSync.Client

namespace RoomSync

structure Rehearsal where
  client : Client
  links : List Link

namespace Rehearsal

def start (client : Client) : Rehearsal := ⟨client, []⟩

def connect (r : Rehearsal) (letIn : Bool) : Rehearsal × Except ProtocolError Unit :=
  let (client, request) := r.client.beginConnect
  if letIn && client.target?.isSome then
    ({ r with client := client.connectMade request, links := r.links ++ [{}] }, .ok ())
  else ({ r with client := client.connectFailed }, .error .connectionClosed)

def newest (r : Rehearsal) : Nat := r.links.length - 1

def onNewest (r : Rehearsal) (f : Link → Link) : Rehearsal :=
  { r with links := r.links.modify r.newest f }

def serverSends (r : Rehearsal) (frame : Frame) : Rehearsal := r.onNewest (·.sendToClient frame)

def serverCloses (r : Rehearsal) : Rehearsal := r.serverSends .close

def serverDrops (r : Rehearsal) : Rehearsal := r.onNewest Link.dropServer

/-- Let both tasks of a connection run until they wait. If the client leaves, the server lets go.
The frames that the server got are added to those it got before. -/
def settleOne (state : Rehearsal × List (Nat × Frame)) (i : Nat) : Rehearsal × List (Nat × Frame) :=
  let (r, seen) := state
  match r.links[i]? with
  | none => (r, seen)
  | some link =>
    let (client, link) := r.client.run i link
    let (link, frames) := link.takeAtServer
    let link := if frames.contains .close then link.dropServer else link
    let (client, link) := client.run i link
    ({ r with client, links := r.links.set i link }, seen ++ frames.map fun frame => (i, frame))

def settle (r : Rehearsal) : Rehearsal × List (Nat × Frame) :=
  (List.range r.links.length).foldl settleOne (r, [])

end Rehearsal

end RoomSync
