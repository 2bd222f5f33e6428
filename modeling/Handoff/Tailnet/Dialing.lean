import Handoff.Tailnet.Lifecycle

namespace Handoff.Tailnet

/-- Where a dial leads: the tailnet address it means and the route there. -/
structure DialPlan where
  target : Endpoint
  route : Route

/-- Finds the listener an address leads to, and changes nothing. -/
def planDial (t : Tailnet) (network address : String) : Except Fault DialPlan :=
  match HostPort.parse address.toList with
  | .error e => .error (.badAddress address e)
  | .ok ⟨host, port⟩ =>
    match t.registry.resolve host with
    | none => .error (.noSuchHost network address (String.ofList host))
    | some ip =>
      match t.registry.routes ⟨ip, port⟩ with
      | none => .error (.refused network address)
      | some route =>
        if route.funnelOnly then .error (.funnelTraffic network address)
        else .ok ⟨⟨ip, port⟩, route⟩

/-- Notes which node a connection comes from, so that the listener can tell. -/
def recordDialer (t : Tailnet) (n : NodeId) (id : StreamId) (target : Endpoint) : Tailnet :=
  match (t.node n).addressLike target.ip with
  | none => t
  | some ip =>
    let source := (t.streams.own ⟨id, .near⟩).address
    { t with registry := t.registry.addDialer source ⟨ip, source.port⟩ }

/-- A dial up to its connection, which the other side can take from then on. It gives the
connection and the address that was meant. -/
def beginDial (n : NodeId) (network address : String) (t : Tailnet) :
    Except Fault (StreamId × Endpoint) × Tailnet :=
  if !isNetwork network then (.error (.unsupportedNetwork network), t)
  else match t.start n with
    | (.error f, t) => (.error f, t)
    | (.ok (), t) =>
      match t.planDial network address with
      | .error f => (.error f, t)
      | .ok ⟨target, route⟩ =>
        match t.connect route.backing .dialed with
        | .error e => (.error (.connecting network address e), t)
        | .ok (id, t) => (.ok (id, target), t)

/-- What a dial has still to do once it has connected. -/
def endDial (n : NodeId) (id : StreamId) (target : Endpoint) (t : Tailnet) : Tailnet :=
  (t.recordDialer n id target).log n s!"dialed {target.name}"

def dial (n : NodeId) (network address : String) (t : Tailnet) :
    Except Fault Descriptor × Tailnet :=
  match t.beginDial n network address with
  | (.error f, t) => (.error f, t)
  | (.ok (id, target), t) => (.ok ⟨id, .near⟩, t.endDial n id target)

/-- A dial whose halves nobody comes between. -/
theorem dial_eq (n : NodeId) (network address : String) (t : Tailnet) :
    t.dial n network address =
      if !isNetwork network then (.error (.unsupportedNetwork network), t)
      else match t.start n with
        | (.error f, t) => (.error f, t)
        | (.ok (), t) =>
          match t.planDial network address with
          | .error f => (.error f, t)
          | .ok ⟨target, route⟩ =>
            match t.connect route.backing .dialed with
            | .error e => (.error (.connecting network address e), t)
            | .ok (id, t) =>
              (.ok ⟨id, .near⟩, (t.recordDialer n id target).log n s!"dialed {target.name}") := by
  unfold dial beginDial
  cases isNetwork network with
  | false => rfl
  | true =>
    generalize t.start n = r
    obtain ⟨r, t⟩ := r
    cases r with
    | error f => rfl
    | ok =>
      simp only [Bool.not_true, Bool.false_eq_true, if_false]
      generalize t.planDial network address = plan
      cases plan with
      | error f => rfl
      | ok plan =>
        dsimp only
        generalize t.connect plan.route.backing .dialed = made
        cases made <;> rfl

/-- The tailnet address of whoever is at the other end of a socket. `none` stands for a socket
that has no address of this kind; a peer no node dialed from is reported as it is. -/
def remoteAddress (t : Tailnet) (peer : Except SystemError (Option Endpoint)) :
    Except Fault Endpoint :=
  match peer with
  | .error e => .error (.peerAddress e)
  | .ok none => .error .peerNotIp
  | .ok (some e) => .ok ((t.registry.dialers e).getD e)

end Handoff.Tailnet
