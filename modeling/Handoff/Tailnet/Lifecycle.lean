import Handoff.Tailnet.Closing

namespace Handoff.Tailnet

/-- Settings are taken only before the node starts. -/
def configure (n : NodeId) (option : NodeOption) (t : Tailnet) : Except Fault Unit × Tailnet :=
  if (t.node n).phase = .fresh then (.ok (), t.setNode n ((t.node n).configure option))
  else (.error (.alreadyStarted option.name), t)

def makeStateDirectory (t : Tailnet) (n : NodeId) : Except Fault Unit × Tailnet :=
  match (t.node n).settings.dir with
  | none => (.ok (), t)
  | some dir =>
    let (made, files) := t.files.makeDirectories dir
    (made.mapError (.stateDirectory dir), { t with files })

/-- Gives the node its number, and with it its addresses and its name. -/
def join (t : Tailnet) (n : NodeId) : Tailnet :=
  let node := t.node n
  let registry := t.registry.addHost node.hostname
  let node := { node with phase := .running, host := some registry.lastHost }
  let t := { t.setNode n node with registry }
  t.log n s!"started as {(Address.v4 (hostV4 registry.lastHost)).name}"

/-- Starts a node that has not started; one that runs is left as it is. -/
def start (n : NodeId) (t : Tailnet) : Except Fault Unit × Tailnet :=
  match (t.node n).phase with
  | .running => (.ok (), t)
  | .closed => (.error .serverClosed, t)
  | .fresh =>
    match (t.node n).settings.urlFault with
    | some f => (.error f, t)
    | none =>
      match t.makeStateDirectory n with
      | (.error f, t) => (.error f, t)
      | (.ok (), t) => (.ok (), t.join n)

/-- A node that came up in the same directory left its state there. -/
def hasSavedState (t : Tailnet) (n : NodeId) : Bool :=
  match (t.node n).settings.stateFile with
  | none => false
  | some path => t.files.exists? path

/-- What a node leaves for a later one. -/
def savedState (node : Node) : List Char :=
  Json.object [("hostname", Json.quote node.hostname),
    ("ip4", Json.quote (match node.host with
      | some k => (Address.v4 (hostV4 k)).name
      | none => "0.0.0.0"))]

/-- An ephemeral node, and one without a directory, leaves nothing. -/
def saveState (t : Tailnet) (n : NodeId) : Except Fault Tailnet :=
  let node := t.node n
  match node.settings.stateFile with
  | none => .ok t
  | some path =>
    if node.settings.ephemeral then .ok t
    else match t.files.write path (Text.utf8 (String.ofList (savedState node))) with
      | .ok files => .ok { t with files }
      | .error e => .error (.writeState path e)

/-- Starts the node and admits it by its key or by saved state. -/
def up (n : NodeId) (t : Tailnet) : Except Fault Unit × Tailnet :=
  match t.start n with
  | (.error f, t) => (.error f, t)
  | (.ok (), t) =>
    if (t.node n).online then (.ok (), t)
    else if (t.node n).settings.authkey.isNone && !t.hasSavedState n then (.error .needsLogin, t)
    else match t.saveState n with
      | .error f => (.error f, t)
      | .ok t => (.ok (), (t.setNode n { t.node n with online := true }).log n "up")

/-- The node lets go of its listeners. -/
def dropListeners (t : Tailnet) (n : NodeId) : Tailnet :=
  let node := t.node n
  node.listeners.foldl releaseListener (t.setNode n { node with listeners := [] })

/-- Ends a node for good, also one that never started. -/
def close (n : NodeId) (t : Tailnet) : Except Fault Unit × Tailnet :=
  let node := t.node n
  if node.phase = .closed then (.error .alreadyClosed, t)
  else
    let t := t.setNode n { node with phase := .closed, online := false, loopback := none }
    let t := (node.listeners.foldl closeListener t).dropListeners n
    let t := { t with registry := t.registry.forget node.addresses node.hostname }
    (.ok (), t.log n "closed")

/-- Lets go of a node without closing it: its name and its connections' origins stay known. -/
def releaseNode (n : NodeId) (t : Tailnet) : Tailnet :=
  let t := t.dropListeners n
  t.setNode n { t.node n with log := none, loopback := none }

end Handoff.Tailnet
