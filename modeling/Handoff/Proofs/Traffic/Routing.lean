import Handoff.Proofs.Traffic.Reachable
import Handoff.Proofs.Traffic.Sparing

namespace Handoff

namespace Tailnet
variable {t : Tailnet} {l : ListenerId}

theorem registry_wake (t : Tailnet) (l : ListenerId) : (t.wake l).registry = t.registry := by
  unfold wake
  split
  · rfl
  · rename_i h
    obtain ⟨k, -, -, rfl⟩ := connect_ok h
    rfl

/-- Closing a listener takes away the routes to it, and no others; closing it again, none. -/
theorem routes_closeListener (t : Tailnet) (l : ListenerId) (a : Endpoint) :
    (t.closeListener l).registry.routes a =
      if t.Serves l a then none else t.registry.routes a := by
  by_cases ho : t.Open l
  · have hr : (t.closeListener l).registry =
        t.registry.removeRoutes (t.listener l).addresses := by
      unfold closeListener
      rw [if_neg (by rw [show (t.listener l).closed = false from ho]; exact Bool.false_ne_true),
        registry_wake]
      change t.registry.removeRoutes ((t.markClosed l).listener l).addresses = _
      rw [markClosed, listener_setListener, if_pos rfl]
    rw [hr]
    change (if a ∈ (t.listener l).addresses then none else t.registry.routes a) = _
    by_cases ha : a ∈ (t.listener l).addresses
    · rw [if_pos ha, if_pos ⟨ho, ha⟩]
    · rw [if_neg ha, if_neg fun hs => ha hs.2]
  · rw [closeListener_closed ho, if_neg fun hs => ho hs.1]

/-- Whoever has an address that an open listener is reached under is the listener's node. -/
theorem owner_unique (h : Owned t) (hk : t.registry.lastHost < 2 ^ 31) {a : Endpoint}
    (hs : t.Serves l a) : ∃ n, t.Runs n ∧ l ∈ (t.node n).listeners ∧
      a.ip ∈ (t.node n).addresses ∧ ∀ m, a.ip ∈ (t.node m).addresses → m = n := by
  obtain ⟨n, hr, hl, hown⟩ := h.owner l hs.1
  have hip := hown a hs.2
  exact ⟨n, hr, hl, hip, fun m hm => h.address_unique (Nat.lt_trans hk (by decide)) hip hm⟩

end Tailnet

namespace Traffic
variable {b : Bridge Tailnet} {net : Tailnet} {s : Traffic}

/-- The pump of a closed listener takes no route away. -/
theorem registry_endFeed {k : FeedId} (hw : b.net.Wired)
    (hc : ¬ b.net.Open (b.feed k).listener) : (b.endFeed k).net.registry = b.net.registry :=
  (spares_endFeed (S := fun _ => True) hw trivial hc).registry_eq

theorem routes_closeHandle (h : s.Intact) {i : Nat} {k : Handle} {e : ListenerEntry}
    (he : (s.tables i).listeners.find? k = some e) (a : Endpoint) :
    ((s.bridge i).closeListener k).2.net.registry.routes a =
      if s.net.Serves e.listener a then none else s.net.registry.routes a := by
  have hfeed : ((s.tables i).feed e.feed).listener = e.listener := (h.entries i k e he).2
  rw [Bridge.closeListener_some (b := s.bridge i) he]
  dsimp only
  rw [registry_endFeed]
  · exact Tailnet.routes_closeListener s.net e.listener a
  · exact (Tailnet.calm_closeListener h.wired e.listener).wired
  · change ¬ (s.net.closeListener e.listener).Open ((s.tables i).feed e.feed).listener
    rw [hfeed]
    exact Tailnet.closed_closeListener s.net e.listener

theorem routes_failedListen (hw : net.Wired) (n : NodeId) (network address : String)
    (funnel : Option FunnelMode) {f : Tailnet.Fault}
    (hf : (net.listen n network address funnel).1 = .error f) :
    (net.listen n network address funnel).2.registry.routes = net.registry.routes := by
  rcases Tailnet.listen_cases hw n network address funnel with ⟨_, -, -, hr⟩ | ⟨l, hl, -⟩
  · exact hr
  · rw [hl] at hf
    cases hf

theorem routes_failedHandle (hw : b.net.Wired) (server : Handle) (network address : String)
    (funnel : Option FunnelMode) {x : BridgeError}
    (hx : (b.listen server network address funnel).1 = .error x) :
    (b.listen server network address funnel).2.net.registry.routes = b.net.registry.routes := by
  rcases listen_outcomes hw server network address funnel with
    ⟨e, b', he, -, hroutes⟩ | ⟨a, l, net, -, -, he⟩
  · rw [he]
    exact hroutes
  · rw [he] at hx
    cases hx

/-- Where the routes lead, and who takes them away. -/
structure Routed (s : Traffic) : Prop where
  routes : ∀ a r, s.net.registry.routes a = some r ↔
    ∃ l, s.net.Serves l a ∧ r = (s.net.listener l).route
  single : ∀ l l' a, s.net.Serves l a → s.net.Serves l' a → l = l'
  /-- An address belongs to the running node whose listener is reached under it. -/
  owned : ∀ l a, s.net.Serves l a → ∃ n, s.net.Runs n ∧ l ∈ (s.net.node n).listeners ∧
    a.ip ∈ (s.net.node n).addresses ∧ ∀ m, a.ip ∈ (s.net.node m).addresses → m = n
  /-- However often a listener is closed, no other loses a route. -/
  closed : ∀ l a, (s.net.closeListener l).registry.routes a =
    if s.net.Serves l a then none else s.net.registry.routes a
  closedHandle : ∀ i h e a, (s.tables i).listeners.find? h = some e →
    ((s.bridge i).closeListener h).2.net.registry.routes a =
      if s.net.Serves e.listener a then none else s.net.registry.routes a
  failed : ∀ n network address funnel f, (s.net.listen n network address funnel).1 = .error f →
    (s.net.listen n network address funnel).2.registry.routes = s.net.registry.routes
  failedHandle : ∀ i server network address funnel x,
    ((s.bridge i).listen server network address funnel).1 = .error x →
    ((s.bridge i).listen server network address funnel).2.net.registry.routes =
      s.net.registry.routes

/-- As long as the nodes' addresses do not repeat, the routes are those of the open listeners. -/
theorem routed_of_reachable (hr : Reachable s) (hk : s.net.registry.lastHost < 2 ^ 31) :
    Routed s := by
  have hs := hr.intact
  have hreached := hs.owned.reached hk
  exact {
    routes := fun a r => by
      constructor
      · exact hs.wired.routed a r
      · rintro ⟨l, hl, rfl⟩
        exact hreached l a hl
    single := fun l l' a hl hl' => by
      have hroute : (s.net.listener l).route = (s.net.listener l').route :=
        Option.some.inj ((hreached l a hl).symm.trans (hreached l' a hl'))
      exact hs.wired.backing_inj hl.1 hl'.1 (congrArg Tailnet.Route.backing hroute)
    owned := fun l a hl => Tailnet.owner_unique hs.owned hk hl
    closed := Tailnet.routes_closeListener s.net
    closedHandle := fun i h e a he => routes_closeHandle hs he a
    failed := fun n network address funnel f hf =>
      routes_failedListen hs.wired n network address funnel hf
    failedHandle := fun i server network address funnel x hx =>
      routes_failedHandle (b := s.bridge i) hs.wired server network address funnel hx }

def relistened : Traffic :=
  let s := newServer { net := {} } 0
  let s := s.perform 0 (.listen ⟨2752513⟩ "tcp" ":80" none)
  let s := s.perform 0 (.closeListener ⟨2818049⟩)
  let s := s.perform 0 (.listen ⟨2752513⟩ "tcp" ":80" none)
  { s with net := s.net.closeListener 0 }

theorem reachable_relistened : Reachable relistened := by
  have hnew : Reachable (newServer { net := {} } 0) :=
    .next (.start "bridge.ts.net" .standard true .root) (.newServer 0)
  have hlisten := hnew.next (.perform 0 (.listen ⟨2752513⟩ "tcp" ":80" none) fun _ _ _ _ _ =>
    ⟨2818049, by decide, by decide +kernel⟩)
  have hclose := hlisten.next
    (.perform 0 (.closeListener ⟨2818049⟩) fun _ _ _ _ he => by cases he)
  have hagain := hclose.next (.perform 0 (.listen ⟨2752513⟩ "tcp" ":80" none) fun _ _ _ _ _ =>
    ⟨2818049, by decide, by decide +kernel⟩)
  exact hagain.next (.closeListener 0)

theorem routed_of_relistened :
    relistened.net.registry.routes ⟨.v4 (Tailnet.hostV4 1), 80⟩ =
      some (relistened.net.listener 1).route ∧ Routed relistened :=
  ⟨by decide +kernel, routed_of_reachable reachable_relistened (by decide +kernel)⟩

end Traffic
end Handoff
