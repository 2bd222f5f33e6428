import Handoff.Control.Peer
import Handoff.Proofs.Custody.Closure
import Handoff.Proofs.Custody.Configuring
import Handoff.Proofs.Custody.Numbering

/-!
What the end of a bridge leaves on the tailnet: nothing leads to its servers any more, and nobody
else is touched, but its nodes have not ended, so that their names and the origins of their
connections stay known. Closing its servers first takes those along.
-/

namespace Handoff

namespace Tailnet
variable {t : Tailnet} {n : NodeId}

theorem registry_releaseNodes (t : Tailnet) (ns : List NodeId) :
    (ns.foldl (fun t n => t.releaseNode n) t).registry = t.registry := by
  induction ns generalizing t with
  | nil => rfl
  | cons n ns ih => exact (ih _).trans (registry_releaseNode t n)

/-- Nodes that were let go of have no listeners. -/
theorem listeners_releaseNodes {ns : List NodeId}
    (h : n ∈ ns ∨ (t.node n).listeners = []) :
    ((ns.foldl (fun t n => t.releaseNode n) t).node n).listeners = [] := by
  induction ns generalizing t with
  | nil => exact h.resolve_left List.not_mem_nil
  | cons m ns ih =>
    rw [List.foldl_cons]
    apply ih
    by_cases hm : n = m
    · subst hm
      rw [node_releaseNode, if_pos rfl]
      exact .inr rfl
    · rw [node_releaseNode, if_neg hm]
      exact h.imp_left fun hmem => (List.mem_cons.mp hmem).resolve_left hm

end Tailnet

namespace Custody
open Traffic
variable {tables : Nat → Tables} {waiting : List Waiter} {log : List Event} {i : Nat}
  {b : Bridge Tailnet} {c : Custody} {h : Handle} {a : Server}

/-- Where nothing of a bridge was reached, nothing changes as it ends. -/
theorem routes_drop (hf : Fits tables waiting log i b) (h : Houses tables i b) {e : Endpoint}
    (he : ∀ k s, b.servers.find? k = some s → e.ip ∉ (b.net.node s.node).addresses) :
    b.drop.registry.routes e = b.net.registry.routes e := by
  let S : ListenerId → Prop := fun l => ∃ k s, b.servers.find? k = some s ∧ Owns b k s l
  let ips := (b.servers.entries.map Server.node).flatMap fun n => (b.net.node n).addresses
  have hin : Tailnet.Inside S ips b.net := by
    rintro l ⟨k, s, hs, hl⟩ ho e he
    have hmem : s.node ∈ b.servers.entries.map Server.node :=
      List.mem_map.mpr ⟨s, HandleTable.mem_entries.mpr ⟨k, hs⟩, rfl⟩
    exact List.mem_flatMap.mpr ⟨s.node, hmem, inside_owns hf h hs l hl ho e he⟩
  have hlisteners : ∀ k ∈ b.listeners.handles, ∀ e, b.listeners.find? k = some e →
      S e.listener := by
    intro k _ e he
    obtain ⟨s, hs, -⟩ := h.here.homes k e he
    exact ⟨e.server, s, hs, .inr ⟨k, e, he, rfl, rfl⟩⟩
  have hout : e.ip ∉ ips := by
    intro hmem
    obtain ⟨n, hn, hip⟩ := List.mem_flatMap.mp hmem
    obtain ⟨s, hs, rfl⟩ := List.mem_map.mp hn
    obtain ⟨k, hk⟩ := HandleTable.mem_entries.mp hs
    exact he k s hk hip
  have hspares := (spares_closeListeners hf hin hlisteners).1
  have hreleased : b.drop.registry = (b.closeListeners b.listeners.handles).net.registry :=
    Tailnet.registry_releaseNodes ..
  rw [hreleased]
  exact hspares.routes e hout

def departed (c : Custody) (i : Nat) : Custody :=
  { c with toFleet := c.toFleet.dropBridge i }

/-- What the end of the `i`-th bridge comes to on the tailnet. -/
structure Departure (c : Custody) (i : Nat) : Prop where
  tables : ∀ j, (c.departed i).tables j = if j = i then {} else c.tables j
  /-- Nothing leads to its servers. Nodes are numbered with 32 bits. -/
  unrouted : c.net.registry.lastHost < 2 ^ 32 → ∀ h a, (c.tables i).servers.find? h = some a →
    ∀ e, e.ip ∈ (c.net.node a.node).addresses → (c.departed i).net.registry.routes e = none
  routes : ∀ e, (∀ h a, (c.tables i).servers.find? h = some a →
    e.ip ∉ (c.net.node a.node).addresses) →
      (c.departed i).net.registry.routes e = c.net.registry.routes e
  /-- What leads to any other node still does. -/
  others : c.net.registry.lastHost < 2 ^ 32 → ∀ m,
    (∀ h a, (c.tables i).servers.find? h = some a → a.node ≠ m) →
      ∀ e, e.ip ∈ (c.net.node m).addresses →
        (c.departed i).net.registry.routes e = c.net.registry.routes e
  /-- Every name and every origin of a connection stays, also those of its own servers, and of
  these also the ephemeral ones. -/
  names : (c.departed i).net.registry.names = c.net.registry.names
  dialers : (c.departed i).net.registry.dialers = c.net.registry.dialers
  /-- None of its nodes has ended. -/
  nodes : ∀ n, ((c.departed i).net.node n).phase = (c.net.node n).phase ∧
    ((c.departed i).net.node n).addresses = (c.net.node n).addresses
  /-- Of a server that is closed first nothing is known afterwards. -/
  closed_first : c.net.registry.lastHost < 2 ^ 32 → ∀ h a,
    (c.tables i).servers.find? h = some a →
      (∀ name v, ((c.perform i (.close h)).departed i).net.registry.names name = some v →
        .v4 v ∉ (c.net.node a.node).addresses) ∧
      ∀ e origin, ((c.perform i (.close h)).departed i).net.registry.dialers e = some origin →
        origin.ip ∉ (c.net.node a.node).addresses
  /-- A worker's bridge ends in the same way, when its client hangs up or says no more. -/
  worker : ∀ w : Control.Worker, w.tables = c.tables i →
    (∀ incoming, (Control.WorkerLine.mk (some w) c.net incoming).finish.net =
      (c.departed i).net) ∧
    ∀ src sink, (∀ request, (Wire.Request.read src).1 ≠ .ok (some request)) →
      (w.serve c.net src sink).2.2 = (c.departed i).net

theorem still_departed (c : Custody) (i : Nat) : Tailnet.Still c.net (c.departed i).net :=
  Bridge.within_drop Tailnet.indifferent_still Tailnet.still_releaseNode (c.bridge i)

theorem Reachable.departed (hr : Reachable c) (hw : ∀ w ∈ c.waiting, w.bridge ≠ i) :
    Reachable (c.departed i) :=
  hr.next (.dropBridge i hw)

section Reached
variable (hr : Reachable c)
include hr

theorem named_of_reachable (hlast : c.net.registry.lastHost < 2 ^ 32) :
    ∃ started, Tailnet.Named started c.net := by
  obtain ⟨started, hc⟩ := hr.chronicle
  exact ⟨started, hc.named (hc.count ▸ hlast)⟩

/-- A name that leads to a node is the node's own. -/
theorem hostname_of_names (hlast : c.net.registry.lastHost < 2 ^ 32) {n : NodeId} {name : String}
    {v : V4} (hname : c.net.registry.names name = some v)
    (hv : .v4 v ∈ (c.net.node n).addresses) : (c.net.node n).hostname = name := by
  obtain ⟨started, hnamed⟩ := named_of_reachable hr hlast
  rw [hnamed.names, Option.bind_eq_some_iff] at hname
  obtain ⟨m, hm, hknown⟩ := hname
  obtain rfl := hr.intact.owned.address_unique hlast hv (Tailnet.known_eq_some.mp hknown).2
  exact (Tailnet.mem_of_latest hm).2

theorem unrouted_departed (hw : ∀ w ∈ c.waiting, w.bridge ≠ i)
    (hlast : c.net.registry.lastHost < 2 ^ 32) (ha : (c.tables i).servers.find? h = some a)
    {e : Endpoint} (he : e.ip ∈ (c.net.node a.node).addresses) :
    (c.departed i).net.registry.routes e = none := by
  have hs := (hr.departed hw).intact
  have hstill := still_departed c i
  by_contra hsome
  obtain ⟨r, hroute⟩ := Option.ne_none_iff_exists'.mp hsome
  obtain ⟨l, ⟨hopen, hreached⟩, -⟩ := hs.wired.routed e r hroute
  obtain ⟨n, -, hlisted, haddresses⟩ := hs.owned.owner l hopen
  -- the node that the route leads to is the server's, and that has no listener left
  have hhere : e.ip ∈ ((c.departed i).net.node a.node).addresses := by
    rw [hstill.addresses]
    exact he
  obtain rfl : n = a.node :=
    hs.owned.address_unique (hstill.lastHost.symm ▸ hlast) hhere (haddresses e hreached)
  have hempty : ((c.departed i).net.node a.node).listeners = [] := by
    refine Tailnet.listeners_releaseNodes (.inl (List.mem_map.mpr ⟨a, ?_, rfl⟩))
    have hsame := (fits_closeListeners (fits_bridge hr.intact i)
      (c.bridge i).listeners.handles).2.servers
    rw [hsame]
    exact HandleTable.mem_entries.mpr ⟨h, ha⟩
  rw [hempty] at hlisted
  cases hlisted

theorem others_departed (hlast : c.net.registry.lastHost < 2 ^ 32) {m : NodeId}
    (hm : ∀ h a, (c.tables i).servers.find? h = some a → a.node ≠ m) {e : Endpoint}
    (he : e.ip ∈ (c.net.node m).addresses) :
    (c.departed i).net.registry.routes e = c.net.registry.routes e :=
  routes_drop (fits_bridge hr.intact i) (houses_bridge hr.housed i) fun h a ha hip =>
    hm h a ha (hr.intact.owned.address_unique hlast he hip)

theorem names_closed_first (hlast : c.net.registry.lastHost < 2 ^ 32)
    (ha : (c.tables i).servers.find? h = some a) {name : String} {v : V4}
    (hname : ((c.perform i (.close h)).departed i).net.registry.names name = some v) :
    .v4 v ∉ (c.net.node a.node).addresses := by
  rw [(still_departed _ i).names, registry_close hr ha, Tailnet.Registry.forget_names] at hname
  split at hname
  · exact of_decide_eq_true (Option.filter_eq_some_iff.mp hname).2
  · rename_i hne
    exact fun hv => hne (hostname_of_names hr hlast hname hv).symm

theorem dialers_closed_first (ha : (c.tables i).servers.find? h = some a) {e origin : Endpoint}
    (horigin : ((c.perform i (.close h)).departed i).net.registry.dialers e = some origin) :
    origin.ip ∉ (c.net.node a.node).addresses := by
  rw [(still_departed _ i).dialers, dialers_close hr ha] at horigin
  exact of_decide_eq_true (Option.filter_eq_some_iff.mp horigin).2

end Reached

theorem net_finish {w : Control.Worker} (hw : w.tables = c.tables i) (incoming : Wire.Source) :
    (Control.WorkerLine.mk (some w) c.net incoming).finish.net = (c.departed i).net :=
  congrArg Bridge.drop (bridge_of_tables hw)

theorem net_serve {w : Control.Worker} (hw : w.tables = c.tables i) {src : Wire.Source}
    (hend : ∀ request, (Wire.Request.read src).1 ≠ .ok (some request)) (sink : Wire.Sink) :
    (w.serve c.net src sink).2.2 = (c.departed i).net := by
  have hdrop : (w.bridge c.net).drop = (c.departed i).net :=
    congrArg Bridge.drop (bridge_of_tables hw)
  rw [Control.Worker.serve]
  split
  · exact hdrop
  · exact hdrop
  · rename_i hread
    exact absurd (congrArg Prod.fst hread) (hend _)

/-- A bridge that ends takes its routes with it and nothing else. -/
theorem departure_of_reachable (hr : Reachable c) (hw : ∀ w ∈ c.waiting, w.bridge ≠ i) :
    Departure c i where
  tables _ := rfl
  unrouted hlast _ _ ha _ := unrouted_departed hr hw hlast ha
  routes _ := routes_drop (fits_bridge hr.intact i) (houses_bridge hr.housed i)
  others hlast _ hm _ := others_departed hr hlast hm
  names := (still_departed c i).names
  dialers := (still_departed c i).dialers
  nodes n := ⟨(still_departed c i).phase n, (still_departed c i).addresses n⟩
  closed_first hlast _ _ ha :=
    ⟨fun _ _ => names_closed_first hr hlast ha, fun _ _ => dialers_closed_first hr ha⟩
  worker _ hworker := ⟨net_finish hworker, fun _ sink hend => net_serve hworker hend sink⟩

def guests : Custody :=
  let c := (newServer { net := {} } 0).newServer 1
  let c := c.perform 0 (.listen ⟨2752513⟩ "tcp" ":80" none)
  let c := c.perform 1 (.applyConfig ⟨2752513⟩
    { hostname := some "b", authkey := some "k", ephemeral := true })
  let c := c.perform 1 (.up ⟨2752513⟩)
  c.perform 1 (.dial ⟨2752513⟩ "tcp" "tsnet-bridge:80")

theorem reachable_guests : Reachable guests := by
  have hfirst : Reachable (newServer { net := {} } 0) :=
    .next (.start "bridge.ts.net" .standard true .root)
      (.newServer 0 ⟨2752513, by decide, by decide +kernel⟩)
  have hservers := hfirst.next (.newServer 1 ⟨2752513, by decide, by decide +kernel⟩)
  have hlistens := hservers.next (.perform 0 (.listen ⟨2752513⟩ "tcp" ":80" none)
    fun _ _ _ _ _ => ⟨2818049, by decide, by decide +kernel⟩)
  have hconfigured := hlistens.next (.perform 1 (.applyConfig ⟨2752513⟩
    { hostname := some "b", authkey := some "k", ephemeral := true }) fun _ _ _ _ he => by cases he)
  have hup := hconfigured.next (.perform 1 (.up ⟨2752513⟩) fun _ _ _ _ he => by cases he)
  exact hup.next (.perform 1 (.dial ⟨2752513⟩ "tcp" "tsnet-bridge:80")
    fun _ _ _ _ he => by cases he)

theorem departure_of_guests : (guests.tables 1).servers.handles.length = 1 ∧
    Departure guests 0 ∧ Departure guests 1 := by
  have hidle : guests.waiting = [] := by rfl
  have hnone : ∀ i, ∀ w ∈ guests.waiting, w.bridge ≠ i := by
    intro i w hw
    rw [hidle] at hw
    cases hw
  exact ⟨by decide +kernel, departure_of_reachable reachable_guests (hnone 0),
    departure_of_reachable reachable_guests (hnone 1)⟩

/-- The ephemeral server is still known by its name and as the origin of its connection after its
bridge has ended, and is not once it was closed. -/
theorem known_of_guests : (guests.net.node 1).settings.ephemeral = true ∧
    .v4 (Tailnet.hostV4 2) ∈ (guests.net.node 1).addresses ∧
    (guests.departed 1).net.registry.names "b" = some (Tailnet.hostV4 2) ∧
    ((guests.departed 1).net.registry.dialers (guests.net.loopbackAt 1)).map Endpoint.ip =
      some (.v4 (Tailnet.hostV4 2)) ∧
    errorOf (((guests.departed 1).bridge 0).dial ⟨2752513⟩ "tcp" "b:80").1 =
      some (.fatal "dial tcp b:80: connection refused") ∧
    ((guests.perform 1 (.close ⟨2752513⟩)).departed 1).net.registry.names "b" = none ∧
    ((guests.perform 1 (.close ⟨2752513⟩)).departed 1).net.registry.dialers
      (guests.net.loopbackAt 1) = none := by
  refine ⟨?_, ?_, ?_, ?_, ?_, ?_, ?_⟩ <;> decide +kernel

end Custody
end Handoff
