import Handoff.Failure
import Handoff.SystemError
import Handoff.Net.Endpoint.Reader

namespace Handoff.Tailnet

/-- Why a node refuses. -/
inductive Fault where
  | alreadyStarted (option : String)
  | badControlUrl (url : String)
  | stateDirectory (path : String) (cause : SystemError)
  | serverClosed
  | alreadyClosed
  | notRunning
  | needsLogin
  | writeState (path : String) (cause : SystemError)
  | unsupportedNetwork (network : String)
  | badAddress (address : String) (cause : HostPortError)
  | noSuchHost (network address host : String)
  | refused (network address : String)
  | funnelTraffic (network address : String)
  | connecting (network address : String) (cause : SystemError)
  | funnelPort (port : Port)
  | unknownHost (network address host : String)
  | foreignAddress (network address host : String)
  /-- The system has no loopback socket to give. -/
  | binding (purpose : String) (cause : SystemError)
  | addressInUse (network : String) (taken : Endpoint)
  | listenerClosed
  | peerAddress (cause : SystemError)
  | peerNotIp
  deriving DecidableEq

open Text in
def Fault.toFailure : Fault → Failure
  | alreadyStarted option => ⟨s!"{option} must be set before the server starts", []⟩
  | badControlUrl url => ⟨s!"invalid control URL {quoted url}: expected http:// or https://", []⟩
  | stateDirectory path cause => ⟨s!"create state dir {path}", [cause.message]⟩
  | serverClosed => ⟨"server closed", []⟩
  | alreadyClosed => ⟨"server already closed", []⟩
  | notRunning => ⟨"server is not running", []⟩
  | needsLogin => ⟨"node needs login: no auth key configured and no saved state", []⟩
  | writeState path cause => ⟨s!"write {path}", [cause.message]⟩
  | unsupportedNetwork network => ⟨s!"unsupported network {quoted network}", []⟩
  | badAddress address .missingPort => ⟨s!"address {quoted address}: missing port", []⟩
  | badAddress address (.invalidPort cause) =>
    ⟨s!"address {quoted address}: invalid port", [cause.message]⟩
  | noSuchHost network address host =>
    ⟨s!"dial {network} {address}: no such host {quoted host}", []⟩
  | refused network address => ⟨s!"dial {network} {address}: connection refused", []⟩
  | funnelTraffic network address =>
    ⟨s!"dial {network} {address}: listener only accepts funnel traffic", []⟩
  | connecting network address cause => ⟨s!"dial {network} {address}", [cause.message]⟩
  | funnelPort port =>
    ⟨s!"funnel not available on port {port.toNat}; use 443, 8443, or 10000", []⟩
  | unknownHost network address host =>
    ⟨s!"listen {network} {address}: unknown host {quoted host}", []⟩
  | foreignAddress network address host =>
    ⟨s!"listen {network} {address}: {host} is not this node's address", []⟩
  | binding purpose cause => ⟨s!"bind loopback {purpose}", [cause.message]⟩
  | addressInUse network taken =>
    ⟨s!"listen {network} {taken.name}: address already in use", []⟩
  | listenerClosed => ⟨"listener closed", []⟩
  | peerAddress cause => ⟨"peer address", [cause.message]⟩
  | peerNotIp => ⟨"peer is not an IP socket", []⟩

end Handoff.Tailnet
