import Handoff.Bridge.Basic

namespace Handoff.Bridge
variable {W : Type} [Network W]

/-- Gives a listener of the network a handle and a channel that its connections come through. -/
def addListener (b : Bridge W) (server : Handle) (listener : ListenerId) : Handle × Bridge W :=
  let (h, listeners) := b.listeners.allocate { server, listener, feed := b.feeds }
  (h, { b with listeners, feed := assign b.feed b.feeds { listener }, feeds := b.feeds + 1 })

/-- Listens at an address, with `funnel` also or only for public traffic. -/
def listen (b : Bridge W) (server : Handle) (network address : String)
    (funnel : Option FunnelMode) : Outcome W Handle :=
  match b.withNode server fun n => Network.listen n network address funnel with
  | (.error e, b) => (.error e, b)
  | (.ok listener, b) => (b.addListener server listener).map .ok id

def listenersOf (b : Bridge W) (server : Handle) : List Handle :=
  b.listeners.handlesWhere fun l => l.server = server

/-- The channel of a feed was shut down, and nobody waits there who keeps its receiving end. -/
def isDeserted (b : Bridge W) (i : FeedId) : Bool :=
  b.waiters i = 0 && !(b.feed i).channel.receiverOpen

/-- Drops the receiving end of a feed's channel once it is deserted, and with it what nobody has
accepted. -/
def sweep (b : Bridge W) (i : FeedId) : Bridge W :=
  let f := b.feed i
  let unaccepted := if b.isDeserted i then f.channel.pending else []
  let channel := if b.isDeserted i then f.channel.dropReceiver else f.channel
  let streams := (Network.streams b.net).closeAll unaccepted
  { b with net := Network.withStreams b.net streams }.setFeed i { f with channel }

/-- Nothing more is received once the listener of a feed is closed: the pump runs to its end, and
the listener is let go of. Whoever closes it waits for the pump here. On a machine that cannot reach
itself nothing wakes a pump that waits for a connection, and the wait would have no end; this goes
on as if the pump had been stopped where it is. -/
def stopFeed (b : Bridge W) (i : FeedId) : Bridge W :=
  let f := b.feed i
  let (f, net) := { f with channel := f.channel.shutdown }.run b.net
  { b with net := Network.releaseListener f.listener net }.setFeed i f

/-- The end of a feed once its listener is closed. What was not accepted is dropped, unless somebody
waits for it. -/
def endFeed (b : Bridge W) (i : FeedId) : Bridge W :=
  (b.stopFeed i).sweep i

theorem feed_sweep (b : Bridge W) (i : FeedId) : (b.sweep i).feed i =
    { b.feed i with channel :=
        if b.isDeserted i then (b.feed i).channel.dropReceiver else (b.feed i).channel } :=
  assign_same ..

theorem feed_endFeed_ne {i k : FeedId} (b : Bridge W) (h : k ≠ i) :
    (b.endFeed i).feed k = b.feed k :=
  (assign_of_ne _ _ _ h).trans (assign_of_ne _ _ _ h)

/-- Retires the handle and wakes whoever waits for a connection. -/
def closeListener (b : Bridge W) (listener : Handle) : Outcome W Unit :=
  match b.listeners.close listener with
  | .error e => (.error e, b)
  | .ok (entry, listeners) =>
    let net := Network.closeListener entry.listener b.net
    (.ok (), { b with listeners, net }.endFeed entry.feed)

def closeListeners (b : Bridge W) (ls : List Handle) : Bridge W :=
  ls.foldl (fun b l => (b.closeListener l).2) b

end Handoff.Bridge
