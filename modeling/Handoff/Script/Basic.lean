import Handoff.Network

namespace Handoff

namespace Script

/-- What happens when a scripted listener accepts. -/
inductive Entry where
  /-- A connection whose other end sent `sent` and closed. A late one arrives only once the
  listener is closed. -/
  | connection (sent : List UInt8) (late : Bool)
  | failure (f : Failure)
  | panic
  deriving DecidableEq

structure ListenerPlan where
  entries : List Entry := []
  /-- The answers to questions for a remote address. -/
  remotes : List (Except Failure Endpoint) := []

/-- The outcomes of a node's operations, in order. An operation whose outcomes are used up
succeeds with nothing. -/
structure NodePlan where
  configure : List (Except Failure Unit) := []
  start : List (Except Failure Unit) := []
  up : List (Except Failure Unit) := []
  close : List (Except Failure Unit) := []
  dial : List (Except Failure (List UInt8)) := []
  listen : List (Except Failure ListenerPlan) := []
  addresses : List (Except Failure (List Address)) := []
  certDomains : List (Except Failure (List String)) := []
  loopback : List (Except Failure LoopbackInfo) := []

structure Listener where
  plan : ListenerPlan := {}
  closed : Bool := false

end Script

open Script in
/-- A network on which everything happens as it was written down before. -/
structure Script where
  node : NodeId → NodePlan := fun _ => {}
  nodes : Nat := 0
  listener : ListenerId → Script.Listener := fun _ => {}
  listeners : Nat := 0
  streams : Streams := .empty
  files : Files := .root
  /-- What was asked of the network, latest first. -/
  calls : List String := []

namespace Script

/-- The scripts of the nodes that will be made, in order. -/
def ofPlans (plans : List NodePlan) (files : Files) : Script :=
  { node := fun n => plans.getD n {}, files }

def note (s : Script) (call : String) : Script :=
  { s with calls := call :: s.calls }

/-- The next outcome and those after it. -/
def next {α : Type} (default : α) :
    List (Except Failure α) → Except Failure α × List (Except Failure α)
  | [] => (.ok default, [])
  | r :: rs => (r, rs)

def setNode (s : Script) (n : NodeId) (plan : NodePlan) : Script :=
  { s with node := assign s.node n plan }

def setListener (s : Script) (l : ListenerId) (x : Listener) : Script :=
  { s with listener := assign s.listener l x }

/-- A connection whose far end sent `sent` and closed. -/
def connect (s : Script) (sent : List UInt8) : Descriptor × Script :=
  let nowhere : Endpoint := ⟨.localhost, 0⟩
  let (id, streams) := s.streams.connect nowhere nowhere
  let far := { streams.own ⟨id, .far⟩ with sent, ended := true, gone := true, holders := 0 }
  (⟨id, .near⟩, { s with streams := streams.setEnd id .far far })

def newNode (s : Script) : NodeId × Script :=
  (s.nodes, { s with nodes := s.nodes + 1 }.note "new_node")

/-- How a setting is told. -/
def optionText : NodeOption → String
  | .dir v | .hostname v | .authkey v | .controlUrl v => v
  | .ephemeral on => if on then "true" else "false"
  | .logFile path => if path.isSome then "fd" else "none"

def configure (n : NodeId) (option : NodeOption) (s : Script) : Except Failure Unit × Script :=
  let (r, rest) := next () (s.node n).configure
  (r, (s.setNode n { s.node n with configure := rest }).note
    s!"configure {option.name} {optionText option}")

def start (n : NodeId) (s : Script) : Except Failure Unit × Script :=
  let (r, rest) := next () (s.node n).start
  (r, (s.setNode n { s.node n with start := rest }).note "start")

def up (n : NodeId) (s : Script) : Except Failure Unit × Script :=
  let (r, rest) := next () (s.node n).up
  (r, (s.setNode n { s.node n with up := rest }).note "up")

def close (n : NodeId) (s : Script) : Except Failure Unit × Script :=
  let (r, rest) := next () (s.node n).close
  (r, (s.setNode n { s.node n with close := rest }).note "close")

def dial (n : NodeId) (network address : String) (s : Script) :
    Except Failure Descriptor × Script :=
  let (r, rest) := next [] (s.node n).dial
  let s := (s.setNode n { s.node n with dial := rest }).note s!"dial {network} {address}"
  match r with
  | .error f => (.error f, s)
  | .ok sent => (s.connect sent).map .ok id

def funnelText : Option FunnelMode → String
  | none => "None"
  | some .shared => "Some(Shared)"
  | some .funnelOnly => "Some(FunnelOnly)"

def listen (n : NodeId) (network address : String) (funnel : Option FunnelMode) (s : Script) :
    Except Failure ListenerId × Script :=
  let (r, rest) := next {} (s.node n).listen
  let s := (s.setNode n { s.node n with listen := rest }).note
    s!"listen {network} {address} {funnelText funnel}"
  match r with
  | .error f => (.error f, s)
  | .ok plan =>
    (.ok s.listeners, { s.setListener s.listeners { plan } with listeners := s.listeners + 1 })

def addresses (n : NodeId) (s : Script) : Except Failure (List Address) × Script :=
  let (r, rest) := next [] (s.node n).addresses
  (r, (s.setNode n { s.node n with addresses := rest }).note "ips")

def certDomains (n : NodeId) (s : Script) : Except Failure (List String) × Script :=
  let (r, rest) := next [] (s.node n).certDomains
  (r, (s.setNode n { s.node n with certDomains := rest }).note "cert_domains")

def loopback (n : NodeId) (s : Script) : Except Failure LoopbackInfo × Script :=
  let (r, rest) := next ⟨"", "", ""⟩ (s.node n).loopback
  (r, (s.setNode n { s.node n with loopback := rest }).note "loopback")

/-- Without entries nothing happens until the listener closes. -/
def acceptStep (l : ListenerId) (_ : AcceptPhase) (s : Script) : AcceptStep × Script :=
  let x := s.listener l
  match x.plan.entries with
  | [] => if x.closed then (.failed ⟨"listener closed", []⟩, s) else (.blocked, s)
  | e :: rest =>
    let taken := s.setListener l { x with plan.entries := rest }
    match e with
    | .failure f => (.failed f, taken)
    | .panic => (.panicked, taken)
    | .connection sent late =>
      if late && !x.closed then (.blocked, s) else (taken.connect sent).map .accepted id

def remoteAddress (l : ListenerId) (_ : Descriptor) (s : Script) :
    Except Failure Endpoint × Script :=
  let x := s.listener l
  match x.plan.remotes with
  | [] => (.error ⟨"invalid socket address syntax", []⟩, s)
  | r :: rest => (r, s.setListener l { x with plan.remotes := rest })

def closeListener (l : ListenerId) (s : Script) : Script :=
  (s.setListener l { s.listener l with closed := true }).note "listener_close"

end Script

instance : Network Script where
  streams s := s.streams
  withStreams s streams := { s with streams }
  files s := s.files
  withFiles s files := { s with files }
  newNode := Script.newNode
  configure := Script.configure
  start := Script.start
  up := Script.up
  close := Script.close
  dial := Script.dial
  listen := Script.listen
  addresses := Script.addresses
  certDomains := Script.certDomains
  loopback := Script.loopback
  acceptStep := Script.acceptStep
  arrivals l s := (s.listener l).plan.entries.length
  remoteAddress := Script.remoteAddress
  closeListener := Script.closeListener
  releaseListener _ s := s
  releaseNode _ s := s

end Handoff
