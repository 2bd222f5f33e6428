import Handoff.Bridge.Accepting
import Handoff.Bridge.Closing
import Handoff.Bridge.Connections
import Handoff.Bridge.Servers
import Handoff.Bridge.Surface

namespace Handoff

/-- An operation on a handle of a bridge. -/
inductive Verb where
  | start (server : Handle)
  | up (server : Handle)
  | close (server : Handle)
  | configure (server : Handle) (option : NodeOption)
  | applyConfig (server : Handle) (config : Config)
  | dial (server : Handle) (network address : String)
  | listen (server : Handle) (network address : String) (funnel : Option FunnelMode)
  | addresses (server : Handle) (capacity : Nat)
  | certDomains (server : Handle) (capacity : Nat)
  | loopback (server : Handle) (capacity : Nat)
  | lastError (server : Handle) (capacity : Nat)
  | accept (listener : Handle)
  | acceptNonblocking (listener : Handle)
  | acceptReady (listener : Handle)
  | listenerReadable (listener : Handle)
  | closeListener (listener : Handle)
  | remoteAddress (listener conn : Handle) (capacity : Nat)
  | connStream (conn : Handle)
  | takeConn (conn : Handle)
  | closeConn (conn : Handle)
  deriving DecidableEq

/-- What an operation answers. -/
inductive Reply where
  | done
  | handle (h : Handle)
  | text (s : String)
  | flag (b : Bool)
  | descriptor (d : Descriptor)
  | surface (l : Loopback)

/-- How an operation ends, unless it waits for something to happen. -/
inductive Reaction where
  | ends (result : Except BridgeError Reply)
  | waits (place : Waiting)

def Acceptance.reaction : Acceptance → Reaction
  | .done r => .ends (r.map .handle)
  | .waiting place => .waits place

namespace Bridge
variable {W : Type} [Network W]

def ending {α : Type} (reply : α → Reply) (r : Outcome W α) : Reaction × Bridge W :=
  (.ends (r.1.map reply), r.2)

/-- Whether a listener has a connection to accept, or has ended. -/
def listenerReadable (b : Bridge W) (listener : Handle) : Except BridgeError Bool :=
  (b.placeAt listener).map b.isReady

def perform (b : Bridge W) : Verb → Reaction × Bridge W
  | .start s => ending (fun _ => .done) (b.start s)
  | .up s => ending (fun _ => .done) (b.up s)
  | .close s => ending (fun _ => .done) (b.close s)
  | .configure s option => ending (fun _ => .done) (b.configure s option)
  | .applyConfig s config => ending (fun _ => .done) (b.applyConfig s config)
  | .dial s network address => ending .handle (b.dial s network address)
  | .listen s network address funnel => ending .handle (b.listen s network address funnel)
  | .addresses s capacity => ending .text (b.addresses s capacity)
  | .certDomains s capacity => ending .text (b.certDomains s capacity)
  | .loopback s capacity => ending .surface (b.loopback s capacity)
  | .lastError s capacity => ending .text (b.lastError s capacity, b)
  | .accept l => (b.accept l).map Acceptance.reaction id
  | .acceptNonblocking l => ending .handle (b.acceptNonblocking l)
  | .acceptReady l => (b.acceptReady l).map Acceptance.reaction id
  | .listenerReadable l => ending .flag (b.listenerReadable l, b)
  | .closeListener l => ending (fun _ => .done) (b.closeListener l)
  | .remoteAddress l c capacity => ending .text (b.remoteAddress l c capacity)
  | .connStream c => ending .descriptor (b.connStream c)
  | .takeConn c => ending .descriptor (b.takeConn c)
  | .closeConn c => ending (fun _ => .done) (b.closeConn c)

/-- A call that is left waiting keeps the channel that it waits at. -/
def keep (b : Bridge W) (r : Reaction) : Bridge W :=
  { b with
    waiters := match r with
      | .waits place => assign b.waiters place.feed (b.waiters place.feed + 1)
      | .ends _ => b.waiters }

end Bridge
end Handoff
