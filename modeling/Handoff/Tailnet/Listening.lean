import Handoff.Tailnet.Lifecycle

namespace Handoff.Tailnet

/-- The ports on which public traffic can arrive. -/
def funnelPorts : List Port := [443, 8443, 10000]

/-- The addresses a host stands for at the node that is to listen there: all its own for an empty
host, else one of them. -/
def ownAddresses (node : Node) (network address : String) (host : List Char) :
    Except Fault (List Address) :=
  if host = [] then .ok node.addresses
  else
    let foreign := Fault.foreignAddress network address (String.ofList host)
    match Address.parse? host with
    | some ip => if ip ∈ node.addresses then .ok [ip] else .error foreign
    | none =>
      if String.ofList host = node.hostname then
        match node.addresses with
        | ip :: _ => .ok [ip]
        | [] => .error foreign
      else .error (.unknownHost network address (String.ofList host))

/-- What a node is to listen at and how. -/
structure ListenPlan where
  addresses : List Endpoint
  funnel : Option FunnelMode
  /-- The loopback port its socket gets. -/
  socket : Nat
  /-- The port asked for, or the one the socket gets if none was. -/
  port : Port

/-- Checks everything a listen of a running node depends on, and changes nothing. -/
def planListen (t : Tailnet) (n : NodeId) (network address : String)
    (funnel : Option FunnelMode) : Except Fault ListenPlan :=
  match HostPort.parse address.toList with
  | .error e => .error (.badAddress address e)
  | .ok ⟨host, port⟩ =>
    if funnel.isSome ∧ port ∉ funnelPorts then .error (.funnelPort port)
    else match ownAddresses (t.node n) network address host with
      | .error f => .error f
      | .ok ips =>
        match t.nextPort with
        | none => .error (.binding "backing listener" .addressInUse)
        | some k =>
          let port := if port = 0 then t.supply.port k else port
          let addresses : List Endpoint := ips.map (⟨·, port⟩)
          match addresses.find? fun e => (t.registry.routes e).isSome with
          | some taken => .error (.addressInUse network taken)
          | none => .ok ⟨addresses, funnel, k, port⟩

/-- The node lets go of the closed listeners in its list. -/
def pruneListeners (t : Tailnet) (n : NodeId) : Tailnet :=
  let node := t.node n
  let closed := node.listeners.filter fun l => (t.listener l).closed
  let opened := node.listeners.filter fun l => !(t.listener l).closed
  closed.foldl releaseListener (t.setNode n { node with listeners := opened })

/-- Puts the listener of a plan up; the node holds it, and so does the caller. -/
def install (t : Tailnet) (n : NodeId) (plan : ListenPlan) : ListenerId × Tailnet :=
  let l := t.listeners
  let listener : Listener :=
    { backing := t.loopbackAt plan.socket
      addresses := plan.addresses
      funnel := plan.funnel
      holders := 2 }
  let node := t.node n
  (l, { (t.setListener l listener).setNode n { node with listeners := node.listeners ++ [l] } with
    listeners := l + 1
    ports := plan.socket + 1
    bound := assign t.bound listener.backing (some l)
    registry := t.registry.addRoutes plan.addresses listener.route })

/-- Opens the listener of a plan. -/
def openListener (t : Tailnet) (n : NodeId) (plan : ListenPlan) : ListenerId × Tailnet :=
  (t.pruneListeners n).install n plan

def listen (n : NodeId) (network address : String) (funnel : Option FunnelMode) (t : Tailnet) :
    Except Fault ListenerId × Tailnet :=
  if !isNetwork network then (.error (.unsupportedNetwork network), t)
  else match t.start n with
    | (.error f, t) => (.error f, t)
    | (.ok (), t) =>
      match t.planListen n network address funnel with
      | .error f => (.error f, t)
      | .ok plan =>
        let (l, t) := t.openListener n plan
        (.ok l, t.log n s!"listening on {address} (port {plan.port.toNat})")

end Handoff.Tailnet
