import Handoff.Fleet.Basic
import Handoff.Proofs.Handle.Cycle
import Handoff.Proofs.Tailnet.Dialing

namespace Handoff

structure Waiter where
  bridge : Nat
  /-- It waits for the listener to become ready, and takes by the listener's handle then. -/
  ready : Bool
  place : Waiting
  deriving DecidableEq

inductive Event where
  /-- A dial of `target` left the stream `id` at the listener `l`. -/
  | dialed (target : Endpoint) (l : ListenerId) (id : StreamId)
  /-- An accept on a bridge took a connection off the channel of the listener `l`. -/
  | accepted (l : ListenerId) (bridge : Nat) (conn : Conn)
  deriving DecidableEq

/-- Bridges on one tailnet, whoever waits in an accept on one of them, and what happened so far. -/
structure Traffic extends Fleet Tailnet where
  waiting : List Waiter := []
  log : List Event := []

inductive NodeUse where
  | configure (option : NodeOption)
  | start
  | up
  | loopback
  | close
  | dial (network address : String)
  | listen (network address : String) (funnel : Option FunnelMode)

namespace Traffic

def dialEvent (t : Tailnet) (n : NodeId) (network address : String) (id : StreamId) : List Event :=
  match t.destination n network address with
  | some (target, l) => [.dialed target l id]
  | none => []

def acceptEvent (feed : FeedId → Feed) (place : Waiting) (i : Nat) (h : Handle)
    (b : Bridge Tailnet) : List Event :=
  match b.conns.find? h with
  | some c => [.accepted (feed place.feed).listener i c]
  | none => []

def events (b : Bridge Tailnet) (i : Nat) (verb : Verb) (r : Reaction) (b' : Bridge Tailnet) :
    List Event :=
  match r with
  | .ends (.ok (.handle h)) =>
    match verb with
    | .dial server network address =>
      match b.servers.find? server, b'.conns.find? h with
      | some s, some c => dialEvent b.net s.node network address c.descriptor.stream
      | _, _ => []
    | .accept l | .acceptNonblocking l | .acceptReady l =>
      match b.placeAt l with
      | .ok place => acceptEvent b.feed place i h b'
      | .error _ => []
    | _ => []
  | _ => []

section Acting
variable (s : Traffic)

def newServer (i : Nat) : Traffic :=
  { s with toFleet := s.setBridge i (s.bridge i).newServer.2 }

def pump (i : Nat) (k : FeedId) : Traffic :=
  match ((s.tables i).feed k).step s.net with
  | some (f, net) => { s with toFleet := s.setBridge i ({ s.bridge i with net }.setFeed k f) }
  | none => s

/-- Performs an operation on a bridge. An accept that has to wait is left waiting. -/
def perform (i : Nat) (verb : Verb) : Traffic :=
  let (r, b) := (s.bridge i).perform verb
  let waiting := match r, verb with
    | .waits place, .acceptReady _ => s.waiting ++ [⟨i, true, place⟩]
    | .waits place, _ => s.waiting ++ [⟨i, false, place⟩]
    | .ends _, _ => s.waiting
  { toFleet := s.setBridge i (b.keep r)
    waiting
    log := s.log ++ events (s.bridge i) i verb r b }

def resume (w : Waiter) : Traffic :=
  let b := s.bridge w.bridge
  let place := if w.ready then b.placeAt w.place.listener else .ok w.place
  let (a, b') := b.resume w.ready w.place
  match a, place with
  | .waiting _, _ => { s with toFleet := s.setBridge w.bridge b' }
  | .done (.ok h), .ok place =>
    { toFleet := s.setBridge w.bridge b'
      waiting := s.waiting.erase w
      log := s.log ++ acceptEvent b.feed place w.bridge h b' }
  | .done _, _ => { s with toFleet := s.setBridge w.bridge b', waiting := s.waiting.erase w }

def use (n : NodeId) : NodeUse → Traffic
  | .configure option => { s with net := (s.net.configure n option).2 }
  | .start => { s with net := (s.net.start n).2 }
  | .up => { s with net := (s.net.up n).2 }
  | .loopback => { s with net := (s.net.loopback n).2 }
  | .close => { s with net := (s.net.close n).2 }
  | .listen network address funnel => { s with net := (s.net.listen n network address funnel).2 }
  | .dial network address =>
    match s.net.dial n network address with
    | (.ok d, net) => { s with net, log := s.log ++ dialEvent s.net n network address d.stream }
    | (.error _, net) => { s with net }

def Loose (n : NodeId) : Prop :=
  ∀ i h server, (s.tables i).servers.find? h = some server → server.node ≠ n

end Acting

/-- One thing that happens. Everybody acts in any order; a table that would have to issue a handle
with none free gives no answer. -/
inductive Move (s : Traffic) : Traffic → Prop where
  | newServer (i : Nat) : Move s (s.newServer i)
  | perform (i : Nat) (verb : Verb) : (∀ server network address funnel,
      verb = .listen server network address funnel → (s.tables i).listeners.HasRoom) →
    Move s (s.perform i verb)
  | resume (w : Waiter) : w ∈ s.waiting → Move s (s.resume w)
  | pump (i : Nat) (k : FeedId) : k < (s.tables i).feeds → Move s (s.pump i k)
  /-- A bridge is dropped, which nobody does who still waits there. -/
  | dropBridge (i : Nat) : (∀ w ∈ s.waiting, w.bridge ≠ i) →
    Move s { s with toFleet := s.toFleet.dropBridge i }
  | newNode : Move s { s with net := s.net.newNode.2 }
  | use (n : NodeId) (u : NodeUse) : n < s.net.nodes → s.Loose n → Move s (s.use n u)
  /-- A listener is closed by whoever has it. -/
  | closeListener (l : ListenerId) : Move s { s with net := s.net.closeListener l }
  /-- Connections are used and closed. -/
  | useStreams (streams : Streams) : streams.count = s.net.streams.count →
    Move s { s with net := { s.net with streams } }
  | useFiles (files : Files) : Move s { s with net := { s.net with files } }

/-- What can come about on a tailnet, called `suffix`, that starts without a node. -/
inductive Reachable : Traffic → Prop where
  | start (suffix : String) (supply : Tailnet.Supply) (loopbackUp : Bool) (files : Files) :
    Reachable { net := { suffix, supply, loopbackUp, files } }
  | next {s s' : Traffic} : Reachable s → Move s s' → Reachable s'

end Traffic
end Handoff
