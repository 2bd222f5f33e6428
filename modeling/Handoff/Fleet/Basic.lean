import Handoff.Bridge.Verb
import Handoff.Control.Peer
import Handoff.Stream.Use

namespace Handoff

/-- A client's session and the worker at the other end of its line. -/
structure Controlled where
  session : Control.Session := .opened
  worker : Option Control.Worker
  incoming : Wire.Source := []

/-- Bridges and control sessions that live side by side on one network. -/
structure Fleet (W : Type) where
  net : W
  bridges : Nat := 0
  /-- The bridges that were dropped. -/
  dropped : List Nat := []
  tables : Nat → Tables := fun _ => {}
  clients : Nat := 0
  client : Nat → Option Controlled := fun _ => none
  /-- Descriptors taken off the bridges, in order; nothing for one that was dropped. -/
  taken : List (Option Descriptor) := []
  /-- Local surfaces by their credentials, in the order they were first seen. -/
  surfaces : List (String × String) := []

namespace Fleet
variable {W : Type} [Network W]

def bridge (f : Fleet W) (i : Nat) : Bridge W :=
  { f.tables i with net := f.net }

def setBridge (f : Fleet W) (i : Nat) (b : Bridge W) : Fleet W :=
  { f with net := b.net, tables := assign f.tables i b.toTables }

/-- Lets everything happen that happens without anybody's doing. -/
def settle (f : Fleet W) : Fleet W :=
  (List.range f.bridges).foldl (fun f i => f.setBridge i (f.bridge i).settle) f

def hasBridge (f : Fleet W) (i : Nat) : Bool :=
  i < f.bridges && !f.dropped.contains i

/-- Ends a bridge. None of its handles is live any more. -/
def dropBridge (f : Fleet W) (i : Nat) : Fleet W :=
  { f with
    net := (f.bridge i).drop
    tables := assign f.tables i {}
    dropped := i :: f.dropped }

/-- Starts a worker and opens a session with it. -/
def spawn (f : Fleet W) (config : Option Config) : Nat × Fleet W :=
  (f.clients,
   { f with
     clients := f.clients + 1
     client := assign f.client f.clients (some { worker := some { config } }) })

def setLine (f : Fleet W) (i : Nat) (session : Control.Session) (line : Control.WorkerLine W) :
    Fleet W :=
  { f with
    net := line.net
    client := assign f.client i (some ⟨session, line.worker, line.incoming⟩) }

/-- One call of a client. -/
def call (f : Fleet W) (i : Nat) (c : Control.Call) :
    Option (Except BridgeError Control.Reply × Bool) × Fleet W :=
  match f.client i with
  | none => (none, f)
  | some k =>
    let line : Control.WorkerLine W := ⟨k.worker, f.net, k.incoming⟩
    let (r, session, line) := k.session.call line c
    (some (r, session.isOpen), f.setLine i session line)

/-- The client hangs up, and its worker ends. -/
def dropClient (f : Fleet W) (i : Nat) : Fleet W :=
  match f.client i with
  | none => f
  | some k =>
    let line : Control.WorkerLine W := ⟨k.worker, f.net, k.incoming⟩
    { f with net := line.finish.net, client := assign f.client i none }

def useStream (f : Fleet W) (d : Descriptor) (u : StreamUse) : StreamResult × Fleet W :=
  let (r, streams) := (Network.streams f.net).use d u
  (r, { f with net := Network.withStreams f.net streams })

/-- The number of a local surface: that of the first one with its credentials. -/
def numberSurface (f : Fleet W) (l : Loopback) : Nat × Fleet W :=
  let key := (l.proxy.text, l.api.text)
  let i := f.surfaces.idxOf key
  (i, if i < f.surfaces.length then f else { f with surfaces := f.surfaces ++ [key] })

end Fleet
end Handoff
