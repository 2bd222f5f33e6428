import Handoff.Bridge.Accepting
import Handoff.Proofs.Race.Flow

namespace Handoff

inductive Shutting where
  | marking
  | unrouting
  | waking
  | ended
  deriving DecidableEq

namespace Shutting

/-- It has set the closed flag, or found it set. -/
def isBegun : Shutting → Bool
  | marking => false
  | _ => true

/-- It has set the closed flag and has not woken the pump yet. -/
def owes : Shutting → Bool
  | unrouting | waking => true
  | _ => false

/-- Steps that are left. -/
def left : Shutting → Nat
  | marking => 3
  | unrouting => 2
  | waking => 1
  | ended => 0

/-- One step of closing the listener `l`, and what becomes of the connection that wakes its pump.
Whoever finds the listener closed leaves the rest to whoever closed it. -/
inductive Step (l : ListenerId) (t : Tailnet) (w : WakeUp) :
    Shutting → Shutting → Tailnet → WakeUp → Prop where
  | found : ¬ t.Open l → Step l t w marking ended t w
  | mark : t.Open l → Step l t w marking unrouting (t.markClosed l) w
  | unroute : Step l t w unrouting waking (t.unroute l) w
  | wake {id : StreamId} {t' : Tailnet} :
    t.connect (t.listener l).backing .wakeUp = .ok (id, t') →
    Step l t w waking ended { t' with streams := t'.streams.close ⟨id, .near⟩ } (.made id)
  | unwoken {e : SystemError} : t.connect (t.listener l).backing .wakeUp = .error e →
    Step l t w waking ended t .failed

end Shutting

inductive Closing where
  | retiring
  | shutting (stage : Shutting)
  /-- The receiver is shut down; it waits for the pump to end. -/
  | joining
  | returned
  deriving DecidableEq

namespace Closing

def stage : Closing → Shutting
  | retiring => .marking
  | shutting s => s
  | joining | returned => .ended

def isShut : Closing → Bool
  | joining | returned => true
  | _ => false

/-- Steps that are left. -/
def left : Closing → Nat
  | retiring => 6
  | shutting s => s.left + 2
  | joining => 1
  | returned => 0

end Closing

inductive Actor where
  | closer
  /-- Somebody else who closes the listener, with its node or by itself. -/
  | other
  | pump
  /-- Somebody who waits in an accept. -/
  | acceptor
  /-- A node that dials the listener. -/
  | dialer
  deriving DecidableEq

def Acceptance.left : Acceptance → Nat
  | waiting _ => 1
  | done _ => 0

/-- A bridge on which a listener's handle is closed while others are at the listener. -/
structure Race where
  bridge : Bridge Tailnet
  closing : Closing := .retiring
  other : Shutting := .marking
  accept : Acceptance
  wakeUp : WakeUp := .pending
  /-- Connections that the pump has put on the channel since the listener is closed. -/
  sent : Nat := 0
  /-- Steps that the pump has made since then. -/
  steps : Nat := 0

namespace Race

/-- Somebody starts to close the handle `h`, which stands for `e`, and somebody waits there in an
accept. -/
def of (b : Bridge Tailnet) (h : Handle) (e : ListenerEntry) : Race :=
  { bridge := b, accept := .waiting ⟨h, e.server, e.feed⟩ }

def net (r : Race) : Tailnet := r.bridge.net

def setNet (r : Race) (net : Tailnet) : Race :=
  { r with bridge := { r.bridge with net } }

def setFeed (r : Race) (i : FeedId) (f : Feed) : Race :=
  { r with bridge := r.bridge.setFeed i f }

@[simp] theorem feed_setFeed (r : Race) (i : FeedId) (f : Feed) :
    (r.setFeed i f).bridge.feed i = f :=
  assign_same ..

def taken (r : Race) : List Descriptor :=
  match r.accept with
  | .done (.ok k) => ((r.bridge.conns.find? k).map Conn.descriptor).toList
  | _ => []

/-- The connections that the accept gave or may still give. -/
def given (i : FeedId) (r : Race) : List Descriptor :=
  r.taken ++ (r.bridge.feed i).passing

/-- One step of somebody while the handle `h`, which stands for `e`, is closed. It is assumed of the
system that a connect does not wait: the queue of connections to accept has no limit, so that
waking the pump is one step however many dials are queued, and it fails only where the machine
cannot reach itself or the socket is gone. -/
inductive Step (h : Handle) (e : ListenerEntry) (r : Race) : Actor → Race → Prop where
  | retire {listeners : HandleTable ListenerEntry} : r.closing = .retiring →
    r.bridge.listeners.close h = .ok (e, listeners) →
    Step h e r .closer
      { r with bridge := { r.bridge with listeners }, closing := .shutting .marking }
  | shut {s s' : Shutting} {net : Tailnet} {w : WakeUp} : r.closing = .shutting s →
    s.Step e.listener r.net r.wakeUp s' net w →
    Step h e r .closer { r.setNet net with closing := .shutting s', wakeUp := w }
  | shutdown : r.closing = .shutting .ended →
    Step h e r .closer { r.setFeed e.feed { r.bridge.feed e.feed with
      channel := (r.bridge.feed e.feed).channel.shutdown } with closing := .joining }
  | join : r.closing = .joining → (r.bridge.feed e.feed).pump = .done →
    Step h e r .closer { r with closing := .returned }
  | shutToo {s' : Shutting} {net : Tailnet} {w : WakeUp} :
    r.other.Step e.listener r.net r.wakeUp s' net w →
    Step h e r .other { r.setNet net with other := s', wakeUp := w }
  | pump {f : Feed} {net : Tailnet} : (r.bridge.feed e.feed).step r.net = some (f, net) →
    Step h e r .pump { (r.setNet net).setFeed e.feed f with
      sent := if r.net.Open e.listener then r.sent
        else r.sent + (f.channel.queue.length - (r.bridge.feed e.feed).channel.queue.length)
      steps := if r.net.Open e.listener then r.steps else r.steps + 1 }
  | accept {place : Waiting} {result : Except BridgeError Handle} {b : Bridge Tailnet} :
    r.accept = .waiting place → r.bridge.resumeAccept place = (.done result, b) →
    Step h e r .acceptor { r with bridge := b, accept := .done result }
  | dial {id : StreamId} {net : Tailnet} :
    r.net.connect (r.net.listener e.listener).backing .dialed = .ok (id, net) →
    Step h e r .dialer (r.setNet net)

/-- Everybody makes steps in any order: who made them, and what came of it. -/
inductive Run (h : Handle) (e : ListenerEntry) : List Actor → Race → Race → Prop where
  | refl (r : Race) : Run h e [] r r
  | step {r r' r'' : Race} {actors : List Actor} {a : Actor} :
    Run h e actors r r' → r'.Step h e a r'' → Run h e (actors ++ [a]) r r''

/-- Steps that are left to whoever does not dial, once the listener is closed. -/
def left (i : FeedId) (r : Race) : Nat :=
  r.closing.left + r.other.left + (r.bridge.feed i).pump.rest + r.accept.left

theorem left_le (r : Race) (i : FeedId) : r.left i ≤ 12 := by
  have hclosing : r.closing.left ≤ 6 := by
    cases r.closing with
    | shutting s => cases s <;> decide
    | _ => decide
  have hother : r.other.left ≤ 3 := by cases r.other <;> decide
  have hpump := Pump.rest_le (r.bridge.feed i).pump
  have haccept : r.accept.left ≤ 1 := by
    cases r.accept with
    | waiting => exact Nat.le_refl _
    | done => exact Nat.zero_le _
  unfold left
  omega

end Race
end Handoff
