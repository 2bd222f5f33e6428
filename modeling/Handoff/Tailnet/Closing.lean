import Handoff.Tailnet.Basic

namespace Handoff.Tailnet

/-- From here on accepts at the listener fail. -/
def markClosed (t : Tailnet) (l : ListenerId) : Tailnet :=
  t.setListener l { t.listener l with closed := true }

/-- Nobody finds the listener any more. -/
def unroute (t : Tailnet) (l : ListenerId) : Tailnet :=
  { t with registry := t.registry.removeRoutes (t.listener l).addresses }

/-- Connects to a bound loopback socket: the connection waits there to be accepted. The socket takes
any number of them. A system that holds back those beyond its listening backlog would let a connect
wait until there is room, or give it up; here it always ends at once. -/
def connect (t : Tailnet) (backing : Endpoint) (arrival : StreamId → Arrival) :
    Except SystemError (StreamId × Tailnet) :=
  if !t.loopbackUp then .error .networkUnreachable
  else match t.bound backing with
  | none => .error .connectionRefused
  | some l =>
    let (id, streams) := t.streams.connect (t.loopbackAt t.ports) backing
    let listener := t.listener l
    .ok (id,
      { t.setListener l { listener with backlog := listener.backlog ++ [arrival id] } with
        streams
        ports := t.ports + 1 })

/-- Wakes an accept that waits at the listener's socket; what connects hangs up at once. -/
def wake (t : Tailnet) (l : ListenerId) : Tailnet :=
  match t.connect (t.listener l).backing .wakeUp with
  | .error _ => t
  | .ok (id, t) => { t with streams := t.streams.close ⟨id, .near⟩ }

/-- Closing twice does nothing more, so a newer listener at the same addresses keeps its routes. -/
def closeListener (t : Tailnet) (l : ListenerId) : Tailnet :=
  if (t.listener l).closed then t else ((t.markClosed l).unroute l).wake l

/-- Gives up one hold on a listener. With the last one its socket closes, and the connections that
still wait at it end. -/
def releaseListener (t : Tailnet) (l : ListenerId) : Tailnet :=
  let listener := t.listener l
  match listener.holders with
  | 0 => t
  | 1 =>
    { t.setListener l { listener with holders := 0, backlog := [] } with
      bound := assign t.bound listener.backing none
      streams := t.streams.closeAll (listener.backlog.map (⟨·.stream, .far⟩)) }
  | holders + 1 => t.setListener l { listener with holders }

/-- One step of accepting. The closed flag is looked at before the wait and again after it. -/
def acceptStep (l : ListenerId) (phase : AcceptPhase) (t : Tailnet) : AcceptStep × Tailnet :=
  let listener := t.listener l
  match phase with
  | .entering =>
    if listener.closed then (.failed Fault.listenerClosed.toFailure, t) else (.proceeds .waiting, t)
  | .waiting =>
    match listener.backlog with
    | [] => (.blocked, t)
    | a :: rest =>
      (.proceeds (.arrived ⟨a.stream, .far⟩), t.setListener l { listener with backlog := rest })
  | .arrived d =>
    if listener.closed then
      (.failed Fault.listenerClosed.toFailure, { t with streams := t.streams.close d })
    else (.accepted d, t)

end Handoff.Tailnet
