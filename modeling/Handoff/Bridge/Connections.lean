import Handoff.Bridge.Basic

namespace Handoff.Bridge
variable {W : Type} [Network W]

def withStreams (b : Bridge W) (f : Streams → Streams) : Bridge W :=
  { b with net := Network.withStreams b.net (f (Network.streams b.net)) }

def dial (b : Bridge W) (server : Handle) (network address : String) : Outcome W Handle :=
  match b.withNode server fun n => Network.dial n network address with
  | (.error e, b) => (.error e, b)
  | (.ok descriptor, b) =>
    let (h, conns) := b.conns.allocate { server, listener := none, descriptor }
    (.ok h, { b with conns })

/-- A copy of the connection's descriptor; closing it does not close the connection. -/
def connStream (b : Bridge W) (conn : Handle) : Outcome W Descriptor :=
  match b.conns.get conn with
  | .error e => (.error e, b)
  | .ok c => (.ok c.descriptor, b.withStreams (·.copy c.descriptor))

/-- Retires the handle and hands its descriptor over. -/
def takeConn (b : Bridge W) (conn : Handle) : Outcome W Descriptor :=
  match b.conns.close conn with
  | .error e => (.error e, b)
  | .ok (c, conns) => (.ok c.descriptor, { b with conns })

def closeConn (b : Bridge W) (conn : Handle) : Outcome W Unit :=
  match b.conns.close conn with
  | .error e => (.error e, b)
  | .ok (c, conns) => (.ok (), { b with conns }.withStreams (·.close c.descriptor))

/-- The address of whoever dialed a connection that `listener` accepted. -/
def remoteAddress (b : Bridge W) (listener conn : Handle) (capacity : Nat) : Outcome W String :=
  match b.listeners.get listener with
  | .error e => (.error e, b)
  | .ok entry =>
    match b.conns.get conn with
    | .error e => (.error e, b)
    | .ok c =>
      if c.listener ≠ some listener then
        b.refuse entry.server (.fatal s!"conn {conn} was not accepted by listener {listener}")
      else
        match Network.remoteAddress entry.listener c.descriptor b.net with
        | (.error f, net) => { b with net }.fail entry.server f
        | (.ok endpoint, net) =>
          let text := endpoint.ip.name
          ((ensureFits text capacity).map fun _ => text, { b with net })

end Handoff.Bridge
