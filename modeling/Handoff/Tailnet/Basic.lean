import Handoff.Files
import Handoff.Json.Text
import Handoff.Tailnet.Node
import Handoff.Tailnet.Supply

namespace Handoff

namespace Tailnet

/-- A connection that has reached a listener's socket and has not been accepted. -/
inductive Arrival where
  | dialed (id : StreamId)
  /-- Made when the listener closes, so that an accept that waits wakes up. -/
  | wakeUp (id : StreamId)
  deriving DecidableEq

def Arrival.stream : Arrival → StreamId
  | dialed id => id
  | wakeUp id => id

/-- A listener and the loopback socket behind it. -/
structure Listener where
  backing : Endpoint
  /-- The tailnet addresses it is reached under. -/
  addresses : List Endpoint
  /-- Whether it takes public traffic, and if it takes any other. -/
  funnel : Option FunnelMode := none
  closed : Bool := false
  backlog : List Arrival := []
  /-- Who keeps the socket open: the node that made it, and whoever it was handed to. -/
  holders : Nat := 0

/-- Where traffic to the listener's addresses goes. -/
def Listener.route (l : Listener) : Route :=
  ⟨l.backing, l.funnel = some .funnelOnly⟩

end Tailnet

open Tailnet in
/-- A private network inside one program. Each node has two addresses; a listener is backed by a
loopback socket, and dialing a tailnet address connects to the socket behind it. -/
structure Tailnet where
  /-- What the nodes' certificate domains end in. -/
  suffix : String := "bridge.ts.net"
  supply : Supply := .standard
  /-- The machine can reach itself. Where it cannot, listeners open all the same, and no connection
  is ever made. -/
  loopbackUp : Bool := true
  registry : Registry := {}
  node : NodeId → Node := fun _ => {}
  nodes : Nat := 0
  listener : ListenerId → Listener :=
    fun _ => { backing := ⟨.localhost, 0⟩, addresses := [], closed := true }
  listeners : Nat := 0
  /-- The listener whose socket is bound to a loopback address. -/
  bound : Endpoint → Option ListenerId := fun _ => none
  streams : Streams := .empty
  files : Files := .root
  /-- Loopback ports handed out so far. -/
  ports : Nat := 0
  /-- Credentials made so far. -/
  credentials : Nat := 0

namespace Tailnet

/-- The loopback address of a socket that gets the `k`-th port. -/
def loopbackAt (t : Tailnet) (k : Nat) : Endpoint :=
  ⟨.localhost, t.supply.port k⟩

/-- The first of `n` ports from the `k`-th on that no listener's socket is bound to. -/
def unbound (t : Tailnet) : (n k : Nat) → Option Nat
  | 0, _ => none
  | n + 1, k => if (t.bound (t.loopbackAt k)).isNone then some k else t.unbound n (k + 1)

/-- The port the next socket is bound to, unless there is none. -/
def nextPort (t : Tailnet) : Option Nat :=
  t.unbound t.supply.tries t.ports

def setNode (t : Tailnet) (n : NodeId) (node : Node) : Tailnet :=
  { t with node := assign t.node n node }

def setListener (t : Tailnet) (l : ListenerId) (listener : Listener) : Tailnet :=
  { t with listener := assign t.listener l listener }

/-- Writes a line to the node's log file. A line that cannot be written is lost. -/
def log (t : Tailnet) (n : NodeId) (line : String) : Tailnet :=
  match (t.node n).log with
  | none => t
  | some path =>
    match t.files.append path (Text.utf8 (line ++ "\n")) with
    | .ok files => { t with files }
    | .error _ => t

def newNode (t : Tailnet) : NodeId × Tailnet :=
  (t.nodes, { t with nodes := t.nodes + 1 })

/-- The name of a network that can be dialed and listened on. -/
def isNetwork (network : String) : Bool :=
  network = "tcp" || network = "tcp4" || network = "tcp6"

end Tailnet
end Handoff
