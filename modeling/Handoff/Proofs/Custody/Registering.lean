import Handoff.Proofs.Custody.System
import Handoff.Proofs.Tailnet.Registering
import Handoff.Proofs.Traffic.Indifference
import Handoff.Proofs.Traffic.Reaching

namespace Handoff

/-- Who has joined and who has dialed does not hang on connections, nor on listeners that are
there. -/
theorem Tailnet.indifferent_still : Indifferent Still where
  refl := .refl
  trans := .trans
  streams := fun _ _ h => .of_node rfl rfl h
  backlog := fun _ _ _ => .of_node rfl rfl (.refl _)
  close := still_closeListener
  release := still_releaseListener

namespace Bridge
open Tailnet (Still Registers Strikes NodeVerb indifferent_still)
variable {D : StreamId → Prop} {b : Bridge Tailnet} {α : Type}

/-- An operation on a server's node does what it does to the node, or nothing. -/
theorem registers_withNode (b : Bridge Tailnet) (server : Handle)
    (op : NodeId → Tailnet → Except Failure α × Tailnet)
    (hop : ∀ n, Registers n D b.net (op n b.net).2) :
    ∃ n, Registers n D b.net (b.withNode server op).2.net := by
  rcases Traffic.withNode_cases b server op with
    ⟨e, he⟩ | ⟨s, -, ⟨f, net, hs, he⟩ | ⟨a, net, hs, he⟩⟩
  · rw [he]
    exact ⟨0, .still (.refl _)⟩
  · have hnode := hop s.node
    rw [hs] at hnode
    rw [he]
    exact ⟨s.node, hnode⟩
  · have hnode := hop s.node
    rw [hs] at hnode
    rw [he]
    exact ⟨s.node, hnode⟩

theorem registers_loopback (b : Bridge Tailnet) (server : Handle) (capacity : Nat) :
    ∃ n, Registers n D b.net (b.loopback server capacity).2.net := by
  rw [net_loopback]
  exact b.registers_withNode server Network.loopback fun n => Tailnet.registers_loopback b.net n

theorem registers_listen (b : Bridge Tailnet) (server : Handle) (network address : String)
    (funnel : Option FunnelMode) :
    ∃ n, Registers n D b.net (b.listen server network address funnel).2.net := by
  rw [net_listen]
  exact b.registers_withNode server _
    fun n => Tailnet.registers_listen b.net n network address funnel

theorem registers_dial (b : Bridge Tailnet) (server : Handle) (network address : String)
    (hD : ∀ a id, b.servers.find? server = some a →
      (b.net.dial a.node network address).1 = .ok ⟨id, .near⟩ → D id) :
    ∃ n, Registers n D b.net (b.dial server network address).2.net := by
  rcases Traffic.withNode_cases b server fun n => Network.dial n network address with
    ⟨e, he⟩ | ⟨a, ha, -⟩
  · unfold dial
    rw [he]
    exact ⟨0, .still (.refl _)⟩
  · have hnode := Tailnet.registers_dial b.net a.node network address fun id => hD a id ha
    have hdials := Traffic.dialsAs_dial ha network address
    revert hdials
    generalize b.dial server network address = r
    intro hdials
    cases hdials with
    | connected => exact ⟨a.node, hnode⟩
    | refused => exact ⟨a.node, hnode⟩

/-- Closing a server ends its node, unless that had ended before. -/
theorem strikes_close {server : Handle} {a : Server} (ha : b.servers.find? server = some a) :
    (b.net.node a.node).phase = .closed ∧ Still b.net (b.close server).2.net ∨
      Strikes a.node b.net (b.close server).2.net := by
  have hwithout : Still b.net (b.without server).net :=
    within_closeListeners indifferent_still { b with servers := b.servers.erase server }
      (b.listenersOf server)
  have hreleased := Tailnet.still_releaseNode ((b.without server).net.close a.node).2 a.node
  rw [close_some ha]
  rcases Tailnet.strikes_close (b.without server).net a.node with ⟨hclosed, hsame⟩ | hends
  · rw [hsame] at hreleased
    refine .inl ⟨hwithout.phase a.node ▸ hclosed, hwithout.trans ?_⟩
    change Still _ (((b.without server).net.close a.node).2.releaseNode a.node)
    rwa [hsame]
  · exact .inr ((hends.of_still hwithout).after hreleased)

/-- Whatever is done with a handle serves one node, unless it closes a server. -/
theorem registers_perform (b : Bridge Tailnet) (v : Verb) (hv : ∀ server, v ≠ .close server)
    (hD : ∀ server network address a id, v = .dial server network address →
      b.servers.find? server = some a →
      (b.net.dial a.node network address).1 = .ok ⟨id, .near⟩ → D id) :
    ∃ n, Registers n D b.net (b.perform v).2.net := by
  have hstill : Still b.net (b.perform v).2.net →
      ∃ n, Registers n D b.net (b.perform v).2.net := fun h => ⟨0, .still h⟩
  cases v with
  | start server =>
    exact b.registers_withNode server Network.start fun n => Tailnet.registers_start b.net n
  | up server =>
    exact b.registers_withNode server Network.up fun n => Tailnet.registers_up b.net n
  | close server => exact absurd rfl (hv server)
  | configure server option =>
    exact hstill (within_withNode indifferent_still b server _ (.configure option)
      (fun _ _ => rfl) fun t n => Tailnet.still_configure t n option)
  | applyConfig server config =>
    exact hstill (within_configureAll indifferent_still b server config.options
      fun option _ t n => Tailnet.still_configure t n option)
  | dial server network address =>
    exact b.registers_dial server network address fun a id => hD server network address a id rfl
  | listen server network address funnel => exact b.registers_listen server network address funnel
  | addresses server _ =>
    exact b.registers_withNode server Network.addresses fun _ => .still (.refl b.net)
  | certDomains server _ =>
    exact b.registers_withNode server Network.certDomains fun _ => .still (.refl b.net)
  | loopback server capacity => exact b.registers_loopback server capacity
  | lastError _ _ => exact hstill (.refl b.net)
  | accept l => exact hstill (within_takes indifferent_still (b.takes_accept l))
  | acceptNonblocking l =>
    exact hstill (within_takes indifferent_still (takes_acceptNonblocking .nothing l))
  | acceptReady l => exact hstill (within_takes indifferent_still (b.takes_acceptReady l))
  | listenerReadable _ => exact hstill (.refl b.net)
  | closeListener l => exact hstill (within_closeListener indifferent_still b l)
  | remoteAddress l conn capacity =>
    have hsame : (b.perform (.remoteAddress l conn capacity)).2.net = b.net :=
      b.net_remoteAddress l conn capacity
    rw [hsame]
    exact ⟨0, .still (.refl b.net)⟩
  | connStream conn => exact hstill (within_connStream indifferent_still b conn)
  | takeConn conn => exact hstill (within_takeConn indifferent_still b conn)
  | closeConn conn => exact hstill (within_closeConn indifferent_still b conn)

end Bridge

namespace Custody
open Tailnet (Still Registers Strikes indifferent_still)
variable {c c' : Custody} {n : NodeId} {network address : String} {id : StreamId}

/-- The connection that a dial makes is what the dial leaves in the log. -/
theorem dialEvent_of_ok (hw : c.net.Wired)
    (hd : (c.net.dial n network address).1 = .ok ⟨id, .near⟩) :
    ∃ target l, c.net.destination n network address = some (target, l) ∧
      Traffic.dialEvent c.net n network address id = [.dialed target l id] := by
  rcases Tailnet.dial_cases hw n network address with ⟨f, hf, -⟩ | ⟨target, l, id', hid, hto, -⟩
  · cases hf.symm.trans hd
  · exact ⟨target, l, hto, by rw [Traffic.dialEvent, hto]⟩

/-- A dial by a handle, and what it leaves in the log. -/
theorem log_dial (hw : c.net.Wired) {i : Nat} {server : Handle} {a : Server}
    (ha : (c.tables i).servers.find? server = some a)
    (hd : (c.net.dial a.node network address).1 = .ok ⟨id, .near⟩) :
    ∃ target l, (c.perform i (.dial server network address)).log =
      c.log ++ [.dialed target l id] := by
  obtain ⟨target, l, hto, -⟩ := dialEvent_of_ok hw hd
  have hdials := Traffic.dialsAs_dial (b := c.bridge i) ha network address
  refine ⟨target, l, ?_⟩
  change c.log ++ Traffic.events (c.bridge i) i (.dial server network address)
    (.ends (((c.bridge i).dial server network address).1.map .handle))
    ((c.bridge i).dial server network address).2 = _
  revert hdials
  generalize (c.bridge i).dial server network address = r
  intro hdials
  cases hdials with
  | connected k conns d hok hk _ =>
    obtain rfl : d = ⟨id, .near⟩ := Except.ok.inj (hok.symm.trans hd)
    have hev : Traffic.events (c.bridge i) i (.dial server network address)
        (.ends (.ok (.handle k))) { c.bridge i with
          net := (c.net.dial a.node network address).2, conns } = [.dialed target l id] :=
      Traffic.events_dial (b := c.bridge i) (c := ⟨server, none, ⟨id, .near⟩⟩) ha hto hk
    exact congrArg (c.log ++ ·) hev
  | refused x f servers hf => cases hf.symm.trans hd

/-- A dial by a node without a bridge. -/
theorem log_dialByNode (hw : c.net.Wired)
    (hd : (c.net.dial n network address).1 = .ok ⟨id, .near⟩) :
    ∃ target l, (c.use n (.dial network address)).log = c.log ++ [.dialed target l id] := by
  obtain ⟨target, l, hto, hev⟩ := dialEvent_of_ok hw hd
  refine ⟨target, l, ?_⟩
  unfold use Traffic.use
  dsimp only
  revert hd
  generalize c.net.dial n network address = r
  obtain ⟨r, net⟩ := r
  rintro rfl
  exact congrArg (c.log ++ ·) hev

theorem mem_streamsOf_append {log : List Event} {target : Endpoint} {l : ListenerId} :
    id ∈ Traffic.streamsOf (log ++ [.dialed target l id]) :=
  Traffic.mem_streamsOf.mpr ⟨target, l, List.mem_append_right _ (List.mem_singleton_self _)⟩

theorem net_use (u : NodeUse) : (c.use n u).net = match u with
    | .configure option => (c.net.configure n option).2
    | .start => (c.net.start n).2
    | .up => (c.net.up n).2
    | .loopback => (c.net.loopback n).2
    | .close => (c.net.close n).2
    | .listen network address funnel => (c.net.listen n network address funnel).2
    | .dial network address => (c.net.dial n network address).2 := by
  unfold use Traffic.use
  cases u with
  | dial network address =>
    dsimp only
    split <;> rename_i hd <;> rw [hd]
  | _ => rfl

theorem registers_perform (hw : c.net.Wired) (i : Nat) (v : Verb) : ∃ n,
    Registers n (· ∈ Traffic.streamsOf (c.perform i v).log) c.net (c.perform i v).net ∨
      Strikes n c.net (c.perform i v).net := by
  by_cases hv : ∃ server, v = .close server
  · obtain ⟨server, rfl⟩ := hv
    cases ha : (c.bridge i).servers.find? server with
    | none =>
      have hsame : (c.perform i (.close server)).net = c.net :=
        congrArg (fun r => r.2.net) (Bridge.close_none ha)
      rw [hsame]
      exact ⟨0, .inl (.still (.refl _))⟩
    | some a =>
      rcases Bridge.strikes_close ha with ⟨-, hs⟩ | hends
      · exact ⟨0, .inl (.still hs)⟩
      · exact ⟨a.node, .inr hends⟩
  · obtain ⟨n, hn⟩ := (c.bridge i).registers_perform
      (D := (· ∈ Traffic.streamsOf (c.perform i v).log)) v (fun server he => hv ⟨server, he⟩) <| by
        rintro server network address a id rfl ha hd
        obtain ⟨target, l, hlog⟩ := log_dial hw ha hd
        rw [hlog]
        exact mem_streamsOf_append
    exact ⟨n, .inl hn⟩

theorem registers_use (hw : c.net.Wired) (n : NodeId) (u : NodeUse) :
    Registers n (· ∈ Traffic.streamsOf (c.use n u).log) c.net (c.use n u).net ∨
      Strikes n c.net (c.use n u).net := by
  rw [net_use]
  cases u with
  | configure option => exact .inl (.still (Tailnet.still_configure c.net n option))
  | start => exact .inl (Tailnet.registers_start c.net n)
  | up => exact .inl (Tailnet.registers_up c.net n)
  | loopback => exact .inl (Tailnet.registers_loopback c.net n)
  | close =>
    rcases Tailnet.strikes_close c.net n with ⟨-, hsame⟩ | hends
    · dsimp only
      rw [hsame]
      exact .inl (.still (.refl _))
    · exact .inr hends
  | listen network address funnel =>
    exact .inl (Tailnet.registers_listen c.net n network address funnel)
  | dial network address =>
    refine .inl (Tailnet.registers_dial c.net n network address fun id hd => ?_)
    obtain ⟨target, l, hlog⟩ := log_dialByNode hw hd
    rw [hlog]
    exact mem_streamsOf_append

/-- Whatever happens serves one node, and the connections that are noted are in the log, or it ends
one node. -/
theorem registers_move (hw : c.net.Wired) (hm : Move c c') : ∃ n,
    Registers n (· ∈ Traffic.streamsOf c'.log) c.net c'.net ∨ Strikes n c.net c'.net := by
  have hstill : Still c.net c'.net → ∃ n,
      Registers n (· ∈ Traffic.streamsOf c'.log) c.net c'.net ∨ Strikes n c.net c'.net :=
    fun h => ⟨0, .inl (.still h)⟩
  cases hm with
  | newServer i _ => exact hstill (.of_node rfl rfl (.refl _))
  | perform i v _ => exact registers_perform hw i v
  | resume w _ =>
    apply hstill
    rw [net_resume]
    exact Bridge.within_takes indifferent_still (takes_resumed c w)
  | pump i k _ =>
    apply hstill
    unfold Traffic.pump
    dsimp only
    split
    · rename_i f net hs
      exact indifferent_still.advance (Feed.advance_of_step hs)
    · exact .refl _
  | dropBridge i _ =>
    exact hstill (Bridge.within_drop indifferent_still Tailnet.still_releaseNode (c.bridge i))
  | newNode => exact hstill (.of_node rfl rfl (.refl _))
  | use n u _ _ => exact ⟨n, registers_use hw n u⟩
  | closeListener l => exact hstill (Tailnet.still_closeListener c.net l)
  | useFiles files => exact hstill (Tailnet.still_files c.net files)
  | useStream d u _ => exact hstill (.of_node rfl rfl (c.net.streams.used_use d u).grows)
  | release d _ => exact hstill (.of_node rfl rfl (c.net.streams.grows_close d))

end Custody
end Handoff
