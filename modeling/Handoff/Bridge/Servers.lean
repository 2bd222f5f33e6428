import Handoff.Bridge.Basic
import Handoff.Config.Basic

namespace Handoff.Bridge
variable {W : Type} [Network W]

def newServer (b : Bridge W) : Handle × Bridge W :=
  let (node, net) := Network.newNode b.net
  let (h, servers) := b.servers.allocate { node }
  (h, { b with net, servers })

def serverHandles (b : Bridge W) : List Handle :=
  b.servers.handles

def start (b : Bridge W) (server : Handle) : Outcome W Unit :=
  b.withNode server Network.start

def up (b : Bridge W) (server : Handle) : Outcome W Unit :=
  b.withNode server Network.up

def configure (b : Bridge W) (server : Handle) (option : NodeOption) : Outcome W Unit :=
  b.withNode server fun n => Network.configure n option

/-- Makes settings one after the other until one is refused. -/
def configureAll (b : Bridge W) (server : Handle) : List NodeOption → Outcome W Unit
  | [] => (.ok (), b)
  | option :: options =>
    match b.configure server option with
    | (.error e, b) => (.error e, b)
    | (.ok (), b) => b.configureAll server options

/-- With nothing to set, not even the handle is looked at. -/
def applyConfig (b : Bridge W) (server : Handle) (config : Config) : Outcome W Unit :=
  b.configureAll server config.options

/-- The last failure on a server, cut to what fits in `capacity` bytes with a terminator. -/
def lastError (b : Bridge W) (server : Handle) (capacity : Nat) : Except BridgeError String :=
  (b.servers.get server).bind fun s => s.record.fetch capacity

/-- Writes the last failure into `buffer`; a bad handle leaves it as it is. -/
def lastErrorInto (b : Bridge W) (server : Handle) (buffer : List UInt8) :
    Status × List UInt8 :=
  match b.servers.get server with
  | .error e => (e.status, buffer)
  | .ok s => s.record.copyInto buffer

end Handoff.Bridge
