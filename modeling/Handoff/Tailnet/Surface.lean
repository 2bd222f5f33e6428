import Handoff.Tailnet.Lifecycle

namespace Handoff.Tailnet

def addresses (n : NodeId) (t : Tailnet) : Except Fault (List Address) :=
  if (t.node n).phase = .running then .ok (t.node n).addresses else .error .notRunning

/-- The domains a node can get certificates for. -/
def certDomains (n : NodeId) (t : Tailnet) : Except Fault (List String) :=
  if (t.node n).phase = .running then .ok [(t.node n).hostname ++ "." ++ t.suffix]
  else .error .notRunning

/-- The node's local surface, made when it is first asked for and kept until the node closes. -/
def loopback (n : NodeId) (t : Tailnet) : Except Fault LoopbackInfo × Tailnet :=
  match t.start n with
  | (.error f, t) => (.error f, t)
  | (.ok (), t) =>
    match (t.node n).loopback with
    | some info => (.ok info, t)
    | none =>
      match t.nextPort with
      | none => (.error (.binding "surface" .addressInUse), t)
      | some k =>
        let info : LoopbackInfo :=
          ⟨(t.loopbackAt k).name, t.supply.token t.credentials,
            t.supply.token (t.credentials + 1)⟩
        let t := { t.setNode n { t.node n with loopback := some info } with
          ports := k + 1
          credentials := t.credentials + 2 }
        (.ok info, t.log n s!"loopback on {info.address}")

end Handoff.Tailnet
