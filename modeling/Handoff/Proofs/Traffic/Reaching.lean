import Handoff.Proofs.Tailnet.Reaching
import Handoff.Proofs.Traffic.Reachable

namespace Handoff.Traffic
variable {s : Traffic} {n : NodeId} {network address : String}

/-- A dial by a handle is the dial of its server's node. One that succeeds has a handle of its own,
and one that fails leaves the connections as they are. -/
inductive DialsAs (b : Bridge Tailnet) (server : Handle) (network address : String) (n : NodeId) :
    Outcome Tailnet Handle → Prop where
  | connected (k : Handle) (conns : HandleTable Conn) (d : Descriptor) :
    (b.net.dial n network address).1 = .ok d →
    conns.find? k = some { server, listener := none, descriptor := d } →
    (∀ h, h ≠ k → conns.find? h = b.conns.find? h) →
    DialsAs b server network address n
      (.ok k, { b with net := (b.net.dial n network address).2, conns })
  | refused (x : BridgeError) (f : Tailnet.Fault) (servers : HandleTable Server) :
    (b.net.dial n network address).1 = .error f →
    DialsAs b server network address n
      (.error x, { b with net := (b.net.dial n network address).2, servers })

theorem dialsAs_dial {b : Bridge Tailnet} {server : Handle} {a : Server}
    (ha : b.servers.find? server = some a) (network address : String) :
    DialsAs b server network address a.node (b.dial server network address) := by
  unfold Bridge.dial
  rcases withNode_live ha (fun n => Network.dial n network address)
    (fun n => Tailnet.dial n network address) (fun _ _ => rfl) with
    ⟨f, hf, he⟩ | ⟨d, hd, he⟩
  · rw [he]
    exact .refused _ f _ hf
  · rw [he]
    exact .connected _ _ d hd (HandleTable.find?_allocated ..) fun h hk =>
      (HandleTable.find?_allocate ..).trans (if_neg hk)

structure Reaching (s : Traffic) (n : NodeId) (network address : String) : Prop where
  succeeds : (∃ d, (s.net.dial n network address).1 = .ok d) ↔
    ∃ e l, s.net.Reaches n network address e l
  reaches : ∀ d, (s.net.dial n network address).1 = .ok d → ∃ e l,
    s.net.Reaches n network address e l ∧ (∀ k, s.net.Serves k e → k = l) ∧
      d = ⟨s.net.streams.count, .near⟩ ∧
      (s.net.dial n network address).2.listener l = { s.net.listener l with
        backlog := (s.net.listener l).backlog ++ [.dialed d.stream] } ∧
      ∀ k, k ≠ l → (s.net.dial n network address).2.listener k = s.net.listener k
  fails : ∀ f, (s.net.dial n network address).1 = .error f →
    (s.net.dial n network address).2 = s.net ∨
      (s.net.dial n network address).2 = (s.net.start n).2
  /-- A start gives the node its number and its name, and moves nothing else. -/
  starts : (s.net.start n).2.registry = s.net.registry ∨
    s.net.Ready n ∧ (s.net.start n).2.registry =
      s.net.registry.addHost (s.net.node n).hostname
  rests : ∀ f, (s.net.dial n network address).1 = .error f →
    s.net.Rests (s.net.dial n network address).2 n
  handles : ∀ i h a, (s.tables i).servers.find? h = some a → a.node = n →
    DialsAs (s.bridge i) h network address n ((s.bridge i).dial h network address)

/-- A dial reaches the one listener that owns the address it means, or nobody. Nodes are numbered
with 32 bits, and the machine can reach itself. -/
theorem reaching_of_reachable (hr : Reachable s) (hlast : s.net.registry.lastHost < 2 ^ 32)
    (hup : s.net.loopbackUp = true) (n : NodeId) (network address : String) :
    Reaching s n network address := by
  have hs := hr.intact
  exact {
    succeeds := Tailnet.dial_ok_iff hs.wired hs.owned hlast hup
    reaches := fun d hd => Tailnet.dial_reaches hs.wired hs.owned hlast hd
    fails := fun f hf => Tailnet.dial_fails hf
    starts := Tailnet.registry_start s.net n
    rests := fun f hf => Tailnet.rests_dial hf
    handles := by
      rintro i h a ha rfl
      exact dialsAs_dial ha network address }

/-- A server called `db` listens at all its addresses and, for the public alone, at one more port;
another has not started. -/
def hosting : Traffic :=
  let s := newServer { net := {} } 0
  let s := s.perform 0 (.configure ⟨2752513⟩ (.hostname "db"))
  let s := s.perform 0 (.listen ⟨2752513⟩ "tcp" ":80" none)
  let s := s.perform 0 (.listen ⟨2752513⟩ "tcp" ":443" (some .funnelOnly))
  s.newServer 0

theorem reachable_hosting : Reachable hosting := by
  have hnew : Reachable (newServer { net := {} } 0) :=
    .next (.start "bridge.ts.net" .standard true .root) (.newServer 0)
  have hnamed := hnew.next
    (.perform 0 (.configure ⟨2752513⟩ (.hostname "db")) fun _ _ _ _ he => by cases he)
  have hlisten := hnamed.next (.perform 0 (.listen ⟨2752513⟩ "tcp" ":80" none) fun _ _ _ _ _ =>
    ⟨2818049, by decide, by decide +kernel⟩)
  have hfunnel := hlisten.next (.perform 0 (.listen ⟨2752513⟩ "tcp" ":443" (some .funnelOnly))
    fun _ _ _ _ _ => ⟨2818050, by decide, by decide +kernel⟩)
  exact hfunnel.next (.newServer 0)

theorem reaching_of_hosting :
    (hosting.net.dial 1 "tcp6" "db:80").1 = .ok ⟨0, .near⟩ ∧
      (hosting.net.dial 1 "tcp" "100.64.0.1:443").1.isOk = false ∧
      Reaching hosting 1 "tcp6" "db:80" :=
  ⟨by decide +kernel, by decide +kernel,
    reaching_of_reachable reachable_hosting (by decide +kernel) (by decide +kernel) 1 _ _⟩

end Handoff.Traffic
