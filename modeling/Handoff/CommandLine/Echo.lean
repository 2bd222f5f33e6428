import Handoff.Bridge.Verb
import Handoff.Stream.Use
import Handoff.Tailnet.Network

namespace Handoff.CommandLine

/-- A server that sends everything back. -/
structure Echo where
  bridge : Bridge Tailnet
  listener : Handle
  /-- It asks for the listener to be ready before it accepts. -/
  nonblocking : Bool
  /-- What it prints once it listens. -/
  output : String

namespace Echo

/-- Brings a node up and listens; the first refusal ends it. -/
def start (listen : String) (hostname : Option String) (nonblocking : Bool) (config : Config)
    (t : Tailnet) : Except BridgeError Echo :=
  let (server, b) := ({ net := t } : Bridge Tailnet).newServer
  match b.configureAll server (config.options ++ (hostname.map .hostname).toList) with
  | (.error e, _) => .error e
  | (.ok (), b) =>
    match b.up server with
    | (.error e, _) => .error e
    | (.ok (), b) =>
      match b.listen server "tcp" listen none with
      | (.error e, _) => .error e
      | (.ok listener, b) =>
        match b.addresses server 256 with
        | (.error e, _) => .error e
        | (.ok ips, b) =>
          .ok ⟨b, listener, nonblocking, s!"Listening on {ips} ({listen})\n"⟩

/-- The loopback socket behind the listener. -/
def backing (e : Echo) : Option Endpoint :=
  match e.bridge.listeners.get e.listener with
  | .ok entry => some (e.bridge.net.listener entry.listener).backing
  | .error _ => none

/-- Sends back all that one connection sends. -/
def copyBack (b : Bridge Tailnet) (d : Descriptor) : Bridge Tailnet :=
  match b.net.streams.readAll d with
  | (.bytes bytes, streams) => b.withStreams fun _ => (streams.write d bytes).2.close d
  | (_, streams) => b.withStreams fun _ => streams.close d

/-- Accepts the next connection and serves it. Who it is from does not matter. -/
def serveNext (e : Echo) : Echo :=
  let (a, b) :=
    if e.nonblocking then e.bridge.acceptReady e.listener else e.bridge.accept e.listener
  match a with
  | .done (.ok conn) =>
    let b := (b.remoteAddress e.listener conn 64).2
    match b.takeConn conn with
    | (.ok d, b) => { e with bridge := copyBack b d }
    | (.error _, b) => { e with bridge := b }
  | _ => { e with bridge := b }

/-- Connects from outside, sends `bytes`, and reads what comes back. -/
def exchange (e : Echo) (bytes : List UInt8) : Except SystemError (List UInt8) × Echo :=
  match e.backing with
  | none => (.error .connectionRefused, e)
  | some backing =>
    match e.bridge.net.connect backing .dialed with
    | .error f => (.error f, e)
    | .ok (id, net) =>
      let near : Descriptor := ⟨id, .near⟩
      let streams := ((net.streams.write near bytes).2.shutdownWrite near).2
      let b := { e.bridge with net := { net with streams } }.settle
      let e := { e with bridge := b }.serveNext
      let (r, streams) := e.bridge.net.streams.readAll near
      let e := { e with bridge := e.bridge.withStreams fun _ => streams.close near }
      match r with
      | .bytes reply => (.ok reply, e)
      | _ => (.ok [], e)

end Echo
end Handoff.CommandLine
