import Handoff.Failure
import Handoff.Files
import Handoff.Stream

namespace Handoff

/-- A setting of a node, given before it starts. -/
inductive NodeOption where
  /-- The directory its state is kept in. -/
  | dir (path : String)
  | hostname (name : String)
  /-- The key that admits it without a login. -/
  | authkey (key : String)
  | controlUrl (url : String)
  /-- It leaves the network when it goes away. -/
  | ephemeral (on : Bool)
  /-- The file its log lines go to. -/
  | logFile (path : Option String)
  deriving DecidableEq

def NodeOption.name : NodeOption → String
  | dir _ => "dir"
  | hostname _ => "hostname"
  | authkey _ => "authkey"
  | controlUrl _ => "control_url"
  | ephemeral _ => "ephemeral"
  | logFile _ => "logfd"

/-- What a listener on a public port takes. -/
inductive FunnelMode where
  /-- Public and private traffic. -/
  | shared
  /-- Public traffic only. -/
  | funnelOnly
  deriving DecidableEq

/-- A node's local surface: where it is and the two credentials it asks for. -/
structure LoopbackInfo where
  address : String
  proxyCredential : String
  apiCredential : String
  deriving DecidableEq

abbrev NodeId := Nat
abbrev ListenerId := Nat

/-- Where a call that accepts a connection has got to. -/
inductive AcceptPhase where
  /-- About to look whether the listener is closed. -/
  | entering
  /-- Waiting for a connection to arrive. -/
  | waiting
  /-- A connection has arrived; the listener may have been closed meanwhile. -/
  | arrived (d : Descriptor)
  deriving DecidableEq

/-- What one step of accepting does. -/
inductive AcceptStep where
  /-- Nothing, until something else happens. -/
  | blocked
  | proceeds (phase : AcceptPhase)
  | accepted (d : Descriptor)
  | failed (f : Failure)
  /-- The accepting thread is gone. -/
  | panicked

/-- A network that nodes live on. `W` is its whole state, shared by everyone who uses it. -/
class Network (W : Type) where
  streams : W → Streams
  withStreams : W → Streams → W
  files : W → Files
  withFiles : W → Files → W
  newNode : W → NodeId × W
  configure : NodeId → NodeOption → W → Except Failure Unit × W
  start : NodeId → W → Except Failure Unit × W
  up : NodeId → W → Except Failure Unit × W
  close : NodeId → W → Except Failure Unit × W
  dial : NodeId → (network address : String) → W → Except Failure Descriptor × W
  listen : NodeId → (network address : String) → Option FunnelMode → W →
    Except Failure ListenerId × W
  addresses : NodeId → W → Except Failure (List Address) × W
  certDomains : NodeId → W → Except Failure (List String) × W
  loopback : NodeId → W → Except Failure LoopbackInfo × W
  /-- One step of accepting at a listener. -/
  acceptStep : ListenerId → AcceptPhase → W → AcceptStep × W
  /-- Connections that are still to arrive at a listener, at most. -/
  arrivals : ListenerId → W → Nat
  remoteAddress : ListenerId → Descriptor → W → Except Failure Endpoint × W
  closeListener : ListenerId → W → W
  /-- The holder a listener was handed to lets go of it. -/
  releaseListener : ListenerId → W → W
  /-- The holder of a node lets go of it without closing it. -/
  releaseNode : NodeId → W → W

end Handoff
