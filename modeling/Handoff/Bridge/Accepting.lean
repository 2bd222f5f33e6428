import Handoff.Bridge.Listeners

namespace Handoff

/-- Somebody who waits at a listener's channel, and keeps it when the listener's handle is retired
meanwhile. -/
structure Waiting where
  listener : Handle
  server : Handle
  feed : FeedId
  deriving DecidableEq

/-- How far an accept has got. -/
inductive Acceptance where
  | done (result : Except BridgeError Handle)
  | waiting (place : Waiting)

namespace Bridge
variable {W : Type} [Network W]

/-- The place to wait for a listener's next connection. -/
def placeAt (b : Bridge W) (listener : Handle) : Except BridgeError Waiting :=
  (b.listeners.get listener).map fun entry => ⟨listener, entry.server, entry.feed⟩

/-- Takes what has come through the channel, without waiting for it. -/
def takeNext (b : Bridge W) (place : Waiting) : Outcome W Handle :=
  let f := b.feed place.feed
  let receipt := f.channel.receive
  let streams := (Network.streams b.net).closeAll receipt.dropped
  let b := { b with net := Network.withStreams b.net streams }.setFeed place.feed
    { f with channel := receipt.channel }
  match receipt.result with
  | .error e => b.refuse place.server e.toBridgeError
  | .ok descriptor =>
    let (h, conns) := b.conns.allocate
      { server := place.server, listener := some place.listener, descriptor }
    (.ok h, { b with conns })

/-- A connection, or the end of them, can be taken. -/
def isReady (b : Bridge W) (place : Waiting) : Bool :=
  (b.feed place.feed).channel.isReadable

def acceptNonblocking (b : Bridge W) (listener : Handle) : Outcome W Handle :=
  match b.placeAt listener with
  | .error e => (.error e, b)
  | .ok place => b.takeNext place

/-- Goes on with an accept that waits. -/
def resumeAccept (b : Bridge W) (place : Waiting) : Acceptance × Bridge W :=
  if b.isReady place then (b.takeNext place).map .done id
  else (.waiting place, b)

/-- Waits for the next connection. -/
def accept (b : Bridge W) (listener : Handle) : Acceptance × Bridge W :=
  match b.placeAt listener with
  | .error e => (.done (.error e), b)
  | .ok place => b.resumeAccept place

/-- Goes on with an accept that waits for its listener to become ready. It takes the connection by
the listener's handle, which may have been retired meanwhile. -/
def resumeAcceptReady (b : Bridge W) (place : Waiting) : Acceptance × Bridge W :=
  if b.isReady place then
    match b.acceptNonblocking place.listener with
    | (.error .wouldBlock, b) => (.waiting place, b)
    | (r, b) => (.done r, b)
  else (.waiting place, b)

/-- Tries without waiting, then waits for the listener to become ready and tries again. -/
def acceptReady (b : Bridge W) (listener : Handle) : Acceptance × Bridge W :=
  match b.acceptNonblocking listener with
  | (.error .wouldBlock, b) =>
    match b.placeAt listener with
    | .error e => (.done (.error e), b)
    | .ok place => b.resumeAcceptReady place
  | (r, b) => (.done r, b)

/-- A call that waited at a feed's channel ends. If the listener was closed meanwhile, the receiving
end goes with the last of them. -/
def letGo (b : Bridge W) (i : FeedId) : Bridge W :=
  { b with waiters := assign b.waiters i (b.waiters i - 1) }.sweep i

/-- Goes on with a call that was left waiting, for its listener to become ready if `ready`. -/
def resume (b : Bridge W) (ready : Bool) (place : Waiting) : Acceptance × Bridge W :=
  match if ready then b.resumeAcceptReady place else b.resumeAccept place with
  | (.waiting place, b) => (.waiting place, b)
  | (.done r, b) => (.done r, b.letGo place.feed)

/-- What trying again comes to either way, and letting go keeps, is what going on comes to. -/
theorem resume_of {P : Acceptance → Bridge W → Prop} {b : Bridge W} {place : Waiting}
    (hready : P (b.resumeAcceptReady place).1 (b.resumeAcceptReady place).2)
    (hblocks : P (b.resumeAccept place).1 (b.resumeAccept place).2)
    (hends : ∀ r b', P (.done r) b' → P (.done r) (b'.letGo place.feed)) (ready : Bool) :
    P (b.resume ready place).1 (b.resume ready place).2 := by
  have htried : P (if ready then b.resumeAcceptReady place else b.resumeAccept place).1
      (if ready then b.resumeAcceptReady place else b.resumeAccept place).2 := by
    cases ready with
    | true => exact hready
    | false => exact hblocks
  unfold resume
  revert htried
  generalize (if ready then b.resumeAcceptReady place else b.resumeAccept place) = p
  obtain ⟨a, b'⟩ := p
  intro htried
  cases a with
  | waiting _ => exact htried
  | done r => exact hends r b' htried

end Bridge
end Handoff
