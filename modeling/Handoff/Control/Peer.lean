import Handoff.Control.Client
import Handoff.Control.Worker

namespace Handoff.Control
open Wire

/-- A far end that has said all it will say and only takes what is sent, if it is there at all. -/
structure SilentPeer where
  present : Bool := true
  /-- What the next sends fail with, if they fail, before all others. -/
  sends : List (Option SystemError) := []
  received : List UInt8 := []
  reply : Source := []

/-- A far end that closes on what was sent to it, if it takes anything at all. -/
def SilentPeer.failing (present : Bool) : SilentPeer where
  present
  reply := [.failed SystemError.connectionReset.message]

/-- What is sent next is taken whole or refused. -/
def SilentPeer.take (peer : SilentPeer) (bytes : List UInt8) :
    Except SystemError Unit × SilentPeer :=
  match peer.sends with
  | some e :: sends => (.error e, { peer with sends })
  | none :: sends => (.ok (), { peer with sends, received := peer.received ++ bytes })
  | [] =>
    if peer.present then (.ok (), { peer with received := peer.received ++ bytes })
    else (.error .brokenPipe, peer)

instance : Line SilentPeer where
  send bytes peer := peer.take bytes
  incoming peer := peer.reply
  leave src peer := { peer with reply := src }

/-- A line to a worker that answers at once. -/
structure WorkerLine (W : Type) where
  /-- None once it has ended. -/
  worker : Option Worker := some {}
  net : W
  incoming : Source := []

namespace WorkerLine
variable {W : Type} [Network W]

/-- The worker ends, and its bridge with it. -/
def finish (line : WorkerLine W) : WorkerLine W :=
  match line.worker with
  | none => line
  | some w => { line with worker := none, net := (w.bridge line.net).drop }

/-- The worker answers one request. -/
def answer (line : WorkerLine W) (w : Worker) (request : Request) : WorkerLine W :=
  let (response, w, net) := w.answer line.net request
  let line : WorkerLine W :=
    { worker := some w, net, incoming := line.incoming ++ [.bytes response.encode] }
  if request.isLast then line.finish else line

/-- The worker reads one request from what was sent. -/
def receive (line : WorkerLine W) (w : Worker) (bytes : List UInt8) : WorkerLine W :=
  match Request.read [.bytes bytes] with
  | (.ok (some request), _) => line.answer w request
  | _ => line.finish

end WorkerLine

instance {W : Type} [Network W] : Line (WorkerLine W) where
  send bytes line :=
    match line.worker with
    | none => (.error .brokenPipe, line)
    | some w => (.ok (), line.receive w bytes)
  incoming line := line.incoming
  leave src line := { line with incoming := src }

end Handoff.Control
