import Mathlib.Logic.Relation
import Handoff.Proofs.Bridge.Issuing
import Handoff.Proofs.Stream.Deeds
import Handoff.Proofs.Traffic.Calls
import Handoff.Proofs.Traffic.Reachable

namespace Handoff

/-- Bridges on one tailnet with the descriptors they gave out, and what was done with them. -/
structure Custody extends Traffic where
  /-- Copies that bridges and nodes gave out and that nobody has closed. -/
  hand : List Descriptor := []
  deeds : List Deed := []

def Reaction.given : Reaction → List Descriptor
  | .ends (.ok (.descriptor d)) => [d]
  | _ => []

/-- The handle of a connection that an operation on the `i`-th bridge issued or retired. -/
def Verb.deeds (v : Verb) (i : Nat) (r : Reaction) : List Deed :=
  match v, r with
  | .takeConn c, .ends (.ok _) | .closeConn c, .ends (.ok _) => [.retired i c]
  | _, _ => match v.issued? r with
    | some (.conn, h) => [.issued i h]
    | _ => []

namespace Custody
open Traffic

section Acting
variable (c : Custody)

def newServer (i : Nat) : Custody :=
  { c with toTraffic := c.toTraffic.newServer i }

def perform (i : Nat) (verb : Verb) : Custody :=
  let r := ((c.bridge i).perform verb).1
  { toTraffic := c.toTraffic.perform i verb
    hand := c.hand ++ r.given
    deeds := c.deeds ++ verb.deeds i r }

def resumed (w : Waiter) : Acceptance × Bridge Tailnet :=
  (c.bridge w.bridge).resume w.ready w.place

def resume (w : Waiter) : Custody :=
  { c with
    toTraffic := c.toTraffic.resume w
    deeds := c.deeds ++
      (Verb.accept w.place.listener).deeds w.bridge (c.resumed w).1.reaction }

/-- Uses a node without a bridge; what a dial gives is the caller's. -/
def use (n : NodeId) (u : NodeUse) : Custody :=
  let dialed := match u with
    | .dial network address => (c.net.dial n network address).1.toOption.toList
    | _ => []
  { c with toTraffic := c.toTraffic.use n u, hand := c.hand ++ dialed }

def withStreams (streams : Streams) : Custody :=
  { c with net.streams := streams }

def useStream (d : Descriptor) (u : StreamUse) : Custody :=
  let s := c.net.streams
  { c.withStreams (s.use d u).2 with deeds := c.deeds ++ s.deeds d u }

def release (d : Descriptor) : Custody :=
  { c.withStreams (c.net.streams.close d) with hand := c.hand.erase d }

end Acting

/-- One thing that happens. Connections are used and closed by whoever has a descriptor. -/
inductive Move (c : Custody) : Custody → Prop where
  | newServer (i : Nat) : (c.tables i).servers.HasRoom → Move c (c.newServer i)
  | perform (i : Nat) (verb : Verb) : (∀ server network address funnel,
      verb = .listen server network address funnel → (c.tables i).listeners.HasRoom) →
    Move c (c.perform i verb)
  | resume (w : Waiter) : w ∈ c.waiting → Move c (c.resume w)
  | pump (i : Nat) (k : FeedId) : k < (c.tables i).feeds →
    Move c { c with toTraffic := c.toTraffic.pump i k }
  | dropBridge (i : Nat) : (∀ w ∈ c.waiting, w.bridge ≠ i) →
    Move c { c with toFleet := c.toFleet.dropBridge i }
  | newNode : Move c { c with net := c.net.newNode.2 }
  | use (n : NodeId) (u : NodeUse) : n < c.net.nodes → c.Loose n → Move c (c.use n u)
  | closeListener (l : ListenerId) : Move c { c with net := c.net.closeListener l }
  | useFiles (files : Files) : Move c { c with net := { c.net with files } }
  | useStream (d : Descriptor) (u : StreamUse) : d ∈ c.hand → Move c (c.useStream d u)
  | release (d : Descriptor) : d ∈ c.hand → Move c (c.release d)

/-- What can come about on a tailnet that starts without a node. -/
inductive Reachable : Custody → Prop where
  | start (suffix : String) (supply : Tailnet.Supply) (loopbackUp : Bool) (files : Files) :
    Reachable { net := { suffix, supply, loopbackUp, files } }
  | next {c c' : Custody} : Reachable c → Move c c' → Reachable c'

abbrev Later : Custody → Custody → Prop :=
  Relation.ReflTransGen Move

variable {c c' : Custody}

theorem Reachable.later (h : Reachable c) (hl : Later c c') : Reachable c' := by
  induction hl with
  | refl => exact h
  | tail _ hm ih => exact ih.next hm

theorem bridge_newServer (c : Custody) (i : Nat) :
    (c.newServer i).bridge i = (c.bridge i).newServer.2 := by
  change ({ toTables := assign c.tables i (c.bridge i).newServer.2.toTables i, .. } :
    Bridge Tailnet) = _
  rw [assign_same]
  rfl

theorem bridge_perform (c : Custody) (i : Nat) (v : Verb) : (c.perform i v).bridge i =
    ((c.bridge i).perform v).2.keep ((c.bridge i).perform v).1 := by
  let b := ((c.bridge i).perform v).2.keep ((c.bridge i).perform v).1
  change ({ toTables := assign c.tables i b.toTables i, net := b.net } : Bridge Tailnet) = b
  rw [assign_same]

/-- What holds of the tables before and after an operation on the `i`-th bridge, and of any that do
not change, holds of all. -/
theorem tables_perform {P : Nat → Tables → Tables → Prop} {i : Nat} {v : Verb}
    (here : P i (c.tables i)
      (((c.bridge i).perform v).2.keep ((c.bridge i).perform v).1).toTables)
    (others : ∀ j T, j ≠ i → P j T T) (j : Nat) :
    P j (c.tables j) ((c.perform i v).tables j) := by
  have hall : P j (assign c.tables i (c.tables i) j) ((c.perform i v).tables j) :=
    assign_cases here others j
  rwa [assign_self] at hall

theorem tables_use (c : Custody) (n : NodeId) (u : NodeUse) : (c.use n u).tables = c.tables := by
  unfold use Traffic.use
  cases u <;> dsimp only
  split <;> rfl

/-- Going on with an accept changes the bridge that it waits on. -/
theorem fleet_resume (c : Custody) (w : Waiter) :
    (c.toTraffic.resume w).toFleet = c.setBridge w.bridge (c.resumed w).2 := by
  unfold Traffic.resume resumed
  dsimp only
  split <;> rfl

theorem net_resume (c : Custody) (w : Waiter) : (c.resume w).net = (c.resumed w).2.net :=
  congrArg Fleet.net (fleet_resume c w)

theorem tables_resume (c : Custody) (w : Waiter) :
    (c.resume w).tables = assign c.tables w.bridge (c.resumed w).2.toTables :=
  congrArg Fleet.tables (fleet_resume c w)

theorem takes_resumed (c : Custody) (w : Waiter) :
    (c.bridge w.bridge).Takes (c.resumed w).2 :=
  (c.bridge w.bridge).takes_resume w.ready w.place

/-- Whatever happens with descriptors is something that happens to the bridges and the tailnet. -/
theorem Move.traffic (h : Move c c') : Traffic.Move c.toTraffic c'.toTraffic := by
  cases h with
  | newServer i _ => exact .newServer i
  | perform i verb hroom => exact .perform i verb hroom
  | resume w hw => exact .resume w hw
  | pump i k hk => exact .pump i k hk
  | dropBridge i hw => exact .dropBridge i hw
  | newNode => exact .newNode
  | use n u hn hloose => exact .use n u hn hloose
  | closeListener l => exact .closeListener l
  | useFiles files => exact .useFiles files
  | useStream d u _ =>
    exact .useStreams (c.net.streams.use d u).2 (c.net.streams.used_use d u).count
  | release d _ => exact .useStreams (c.net.streams.close d) rfl

theorem Reachable.traffic (h : Reachable c) : Traffic.Reachable c.toTraffic := by
  induction h with
  | start suffix supply loopbackUp files => exact .start suffix supply loopbackUp files
  | next _ hm ih => exact ih.next hm.traffic

theorem Reachable.intact (h : Reachable c) : c.Intact :=
  h.traffic.intact

end Custody
end Handoff
