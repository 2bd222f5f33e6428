import Handoff.Network
import Handoff.Tailnet.Fault
import Handoff.Tailnet.Registry
import Handoff.Files

namespace Handoff.Tailnet

structure Settings where
  dir : Option String := none
  hostname : Option String := none
  authkey : Option String := none
  controlUrl : Option String := none
  ephemeral : Bool := false
  deriving DecidableEq

/-- The name of a node that was given none. -/
def defaultHostname : String := "tsnet-bridge"

/-- The file that lets a later node in the same directory skip the login. -/
def stateFileName : String := "tailscaled.state"

inductive Phase where
  | fresh
  | running
  | closed
  deriving DecidableEq

structure Node where
  settings : Settings := {}
  log : Option String := none
  phase : Phase := .fresh
  /-- The number it got when it started. -/
  host : Option Nat := none
  /-- It has come up. -/
  online : Bool := false
  listeners : List ListenerId := []
  loopback : Option LoopbackInfo := none

namespace Settings

def name (s : Settings) : String :=
  s.hostname.getD defaultHostname

/-- The coordination server has to be reached over HTTP. -/
def urlFault (s : Settings) : Option Fault :=
  match s.controlUrl with
  | none => none
  | some url =>
    if "http://".toList.isPrefixOf url.toList || "https://".toList.isPrefixOf url.toList then none
    else some (.badControlUrl url)

def stateFile (s : Settings) : Option String :=
  s.dir.map fun dir => Path.join dir stateFileName

end Settings

namespace Node

def hostname (n : Node) : String :=
  n.settings.name

/-- Its two addresses, once it has a number. -/
def addresses (n : Node) : List Address :=
  match n.host with
  | none => []
  | some k => [.v4 (hostV4 k), .v6 (hostV6 k)]

/-- Its own address of the family of `ip`. -/
def addressLike (n : Node) (ip : Address) : Option Address :=
  n.host.map fun k =>
    match ip with
    | .v4 _ => .v4 (hostV4 k)
    | .v6 _ => .v6 (hostV6 k)

def configure (option : NodeOption) (n : Node) : Node :=
  match option with
  | .dir path => { n with settings.dir := some path }
  | .hostname name => { n with settings.hostname := some name }
  | .authkey key => { n with settings.authkey := some key }
  | .controlUrl url => { n with settings.controlUrl := some url }
  | .ephemeral on => { n with settings.ephemeral := on }
  | .logFile path => { n with log := path }

end Node
end Handoff.Tailnet
