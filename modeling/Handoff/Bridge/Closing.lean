import Handoff.Bridge.Listeners

namespace Handoff.Bridge
variable {W : Type} [Network W]

/-- Ends a server with its listeners. Connections stay; they belong to whoever has their handles.
The record is gone by then, so a failure of the node is only told. -/
def close (b : Bridge W) (server : Handle) : Outcome W Unit :=
  match b.servers.close server with
  | .error e => (.error e, b)
  | .ok (s, servers) =>
    let b := { b with servers }
    let b := b.closeListeners (b.listenersOf server)
    let (r, net) := Network.close s.node b.net
    (r.mapError fun f => .fatal f.message, { b with net := Network.releaseNode s.node net })

/-- Ends a bridge: its listeners close, its connections end where nobody else holds them, and its
nodes are let go of as they are. -/
def drop (b : Bridge W) : W :=
  let b := b.closeListeners b.listeners.handles
  let net := Network.withStreams b.net
    ((Network.streams b.net).closeAll (b.conns.entries.map Conn.descriptor))
  (b.servers.entries.map Server.node).foldl (fun net n => Network.releaseNode n net) net

end Handoff.Bridge
