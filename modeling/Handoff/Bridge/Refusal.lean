import Handoff.Bridge.Verb

namespace Handoff

/-- What the system does not give to an operation that needs it, and its words for it. -/
inductive Refusal where
  /-- A second descriptor for a connection or a channel. -/
  | copy (cause : String)
  /-- The channel of a new listener. -/
  | channel (cause : String)
  /-- The thread that moves connections into it. -/
  | thread (cause : String)

namespace Bridge
variable {W : Type} [Network W]

/-- The listener that was opened is closed again. -/
def listenRefused (b : Bridge W) (server : Handle) (network address : String)
    (funnel : Option FunnelMode) (f : Failure) : Outcome W Handle :=
  match b.withNode server fun n => Network.listen n network address funnel with
  | (.error e, b) => (.error e, b)
  | (.ok listener, b) =>
    let net := Network.releaseListener listener (Network.closeListener listener b.net)
    { b with net }.fail server f

def connStreamRefused (b : Bridge W) (conn : Handle) (cause : String) : Outcome W Descriptor :=
  match b.conns.get conn with
  | .error e => (.error e, b)
  | .ok c => b.refuse c.server (.fatal s!"dup conn {conn}: {cause}")

/-- Somebody else is using the connection, so that it takes a copy to hand it over. The handle is
retired all the same. -/
def takeConnRefused (b : Bridge W) (conn : Handle) (cause : String) : Outcome W Descriptor :=
  match b.conns.close conn with
  | .error e => (.error e, b)
  | .ok (c, conns) =>
    ({ b with conns }.withStreams (·.close c.descriptor)).refuse c.server
      (.fatal s!"dup conn {conn}: {cause}")

/-- A listener's channel cannot be watched. -/
def listenerRefused {α : Type} (b : Bridge W) (listener : Handle) (cause : String) : Outcome W α :=
  match b.listeners.get listener with
  | .error e => (.error e, b)
  | .ok entry => b.refuse entry.server (.fatal s!"dup listener {listener}: {cause}")

/-- It is watched only when there is nothing to take at once. -/
def acceptReadyRefused (b : Bridge W) (listener : Handle) (cause : String) : Outcome W Handle :=
  match b.acceptNonblocking listener with
  | (.error .wouldBlock, b) => b.listenerRefused listener cause
  | (r, b) => (r, b)

/-- An operation that is refused what it asks of the system. Most ask for nothing. -/
def performRefused (b : Bridge W) : Refusal → Verb → Reaction × Bridge W
  | .channel cause, .listen s network address funnel =>
    ending .handle (b.listenRefused s network address funnel ⟨"descriptor channel", [cause]⟩)
  | .thread cause, .listen s network address funnel =>
    ending .handle (b.listenRefused s network address funnel ⟨"spawn listener pump", [cause]⟩)
  | .copy cause, .connStream c => ending .descriptor (b.connStreamRefused c cause)
  | .copy cause, .takeConn c => ending .descriptor (b.takeConnRefused c cause)
  | .copy cause, .listenerReadable l => ending .flag (b.listenerRefused l cause)
  | .copy cause, .acceptReady l => ending .handle (b.acceptReadyRefused l cause)
  | _, verb => b.perform verb

end Bridge
end Handoff
