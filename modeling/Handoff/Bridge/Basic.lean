import Handoff.Bridge.Feed
import Handoff.Error.Record
import Handoff.Handle.Table

namespace Handoff

structure Server where
  node : NodeId
  record : ErrorRecord := {}

abbrev FeedId := Nat

/-- What a listener handle stands for. -/
structure ListenerEntry where
  server : Handle
  listener : ListenerId
  feed : FeedId
  deriving DecidableEq

/-- What a connection handle stands for. -/
structure Conn where
  server : Handle
  /-- The listener that accepted it; none for a connection that was dialed. -/
  listener : Option Handle
  descriptor : Descriptor
  deriving DecidableEq

/-- The handles of one bridge and what they stand for. -/
structure Tables where
  servers : HandleTable Server := .empty .server HandleKind.server.base
  listeners : HandleTable ListenerEntry := .empty .listener HandleKind.listener.base
  conns : HandleTable Conn := .empty .conn HandleKind.conn.base
  /-- Feeds outlive the handles of their listeners while somebody still waits at them. -/
  feed : FeedId → Feed := fun _ => { listener := 0, pump := .done }
  feeds : Nat := 0
  /-- How many calls wait at a feed's channel. Each of them keeps the receiving end. -/
  waiters : FeedId → Nat := fun _ => 0

/-- Handles for nodes, listeners and connections of a network. -/
structure Bridge (W : Type) extends Tables where
  net : W

/-- What an operation answers, and the bridge after it. -/
abbrev Outcome (W α : Type) := Except BridgeError α × Bridge W

namespace Bridge
variable {W : Type} [Network W] {α : Type}

/-- Puts a text on a server's record; a server that is gone has none. -/
def record (b : Bridge W) (server : Handle) (text : String) : Bridge W :=
  { b with servers := b.servers.modify server fun s => { s with record := ⟨text⟩ } }

/-- Fails for a reason the network gave, and leaves it on the server's record. -/
def fail (b : Bridge W) (server : Handle) (f : Failure) : Outcome W α :=
  (.error (.fatal f.message), b.record server f.message)

/-- Fails with `e`, and leaves it on the server's record unless it only says what to do next. -/
def refuse (b : Bridge W) (server : Handle) (e : BridgeError) : Outcome W α :=
  match e with
  | .fatal _ | .connectionReset => (.error e, b.record server e.message)
  | _ => (.error e, b)

/-- Runs an operation of the network on a server's node. -/
def withNode (b : Bridge W) (server : Handle) (op : NodeId → W → Except Failure α × W) :
    Outcome W α :=
  match b.servers.get server with
  | .error e => (.error e, b)
  | .ok s =>
    match op s.node b.net with
    | (.ok a, net) => (.ok a, { b with net })
    | (.error f, net) => { b with net }.fail server f

def setFeed (b : Bridge W) (i : FeedId) (f : Feed) : Bridge W :=
  { b with feed := assign b.feed i f }

/-- Lets every pump run until it can do nothing more. -/
def settle (b : Bridge W) : Bridge W :=
  (List.range b.feeds).foldl
    (fun b i =>
      let (f, net) := (b.feed i).run b.net
      { b with net }.setFeed i f) b

def debug (b : Bridge W) : String :=
  s!"Bridge \x7b servers: {b.servers.debug}, listeners: {b.listeners.debug}, " ++
    s!"conns: {b.conns.debug}, .. \x7d"

end Bridge
end Handoff
