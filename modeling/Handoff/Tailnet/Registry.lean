import Handoff.Mapping
import Handoff.Net.Endpoint.Reader

namespace Handoff.Tailnet

/-- Where traffic to a listened address goes. -/
structure Route where
  backing : Endpoint
  funnelOnly : Bool
  deriving DecidableEq

/-- What all nodes of one tailnet share. -/
structure Registry where
  /-- The number of the node that started last. -/
  lastHost : Nat := 0
  routes : Endpoint → Option Route := fun _ => none
  /-- Tailnet address of whoever dialed from a loopback address. -/
  dialers : Endpoint → Option Endpoint := fun _ => none
  names : String → Option V4 := fun _ => none

/-- The addresses of the `k`-th node to start. -/
def hostV4 (k : Nat) : V4 :=
  .ofNat ((100 * 256 + 64) * 256 * 256 + k)

def hostV6 (k : Nat) : V6 :=
  .ofNat (((0xFD7A * 65536 + 0x115C) * 65536 + 0xA1E0) * Nat.pow 65536 5 + k)

namespace Registry

/-- A literal address stands for itself, any other host for the node of that name. -/
def resolve (r : Registry) (host : List Char) : Option Address :=
  match Address.parse? host with
  | some ip => some ip
  | none => (r.names (String.ofList host)).map .v4

/-- Gives the next number to a node called `hostname`. -/
def addHost (r : Registry) (hostname : String) : Registry :=
  { r with
    lastHost := r.lastHost + 1
    names := assign r.names hostname (some (hostV4 (r.lastHost + 1))) }

def addRoutes (r : Registry) (es : List Endpoint) (route : Route) : Registry :=
  { r with routes := fun e => if e ∈ es then some route else r.routes e }

def removeRoutes (r : Registry) (es : List Endpoint) : Registry :=
  { r with routes := fun e => if e ∈ es then none else r.routes e }

def addDialer (r : Registry) (loopback tailnet : Endpoint) : Registry :=
  { r with dialers := assign r.dialers loopback (some tailnet) }

/-- Drops what leads to the addresses `ips`, and `hostname` if it does. -/
def forget (r : Registry) (ips : List Address) (hostname : String) : Registry :=
  { r with
    routes := fun e => if e.ip ∈ ips then none else r.routes e
    dialers := fun e => (r.dialers e).filter fun tailnet => tailnet.ip ∉ ips
    names := match r.names hostname with
      | some ip => if .v4 ip ∈ ips then assign r.names hostname none else r.names
      | none => r.names }

end Registry
end Handoff.Tailnet
