import Handoff.Bridge.Refusal
import Handoff.Proofs.Custody.Origin
import Handoff.Proofs.Tailnet.Listening
import Handoff.Proofs.Traffic.Routing

namespace Handoff

namespace Tailnet
variable {t t' : Tailnet} {n : NodeId} {network address : String} {funnel : Option FunnelMode}
  {k : Nat} {es : List Endpoint} {l : ListenerId}

/-- What opening the listener `l` at `es` does, behind a socket with the `k`-th port. Just these
addresses get a route, which leads to the socket, and whoever is open stays as it is. -/
structure OpensAt (t t' : Tailnet) (funnel : Option FunnelMode) (k : Nat) (es : List Endpoint)
    (l : ListenerId) : Prop where
  made : l = t.listeners
  listener : t'.listener l = { backing := t.loopbackAt k, addresses := es, funnel, holders := 2 }
  routes : ∀ e, t'.registry.routes e =
    if e ∈ es then some ⟨t.loopbackAt k, funnel = some .funnelOnly⟩ else t.registry.routes e
  others : ∀ j, t.Open j → t'.listener j = t.listener j

/-- Only closed listeners are let go of. -/
theorem spares_pruneListeners (t : Tailnet) (n : NodeId) :
    Spares (fun i => ¬ t.Open i) []
      (t.setNode n { t.node n with
        listeners := (t.node n).listeners.filter fun l => !(t.listener l).closed })
      (t.pruneListeners n) := by
  apply spares_releaseListeners
  intro i hi ho
  have hclosed := (List.mem_filter.mp hi).2
  rw [show (t.listener i).closed = false from ho] at hclosed
  cases hclosed

theorem opensAt_openListener (hw : Wired t) (n : NodeId) (plan : ListenPlan) :
    OpensAt t (t.openListener n plan).2 plan.funnel plan.socket plan.addresses
      (t.openListener n plan).1 := by
  have hmade : (t.pruneListeners n).listeners = t.listeners := (calm_pruneListeners hw n).listeners
  have hspares := t.spares_pruneListeners n
  have hbacking : (t.pruneListeners n).loopbackAt plan.socket = t.loopbackAt plan.socket :=
    loopbackAt_of_supply (supply_pruneListeners t n) _
  refine ⟨hmade, ?_, ?_, ?_⟩
  · rw [← hbacking]
    exact new_install
  · intro e
    rw [openListener, routes_install, hspares.registry_eq, ← hbacking]
    rfl
  · intro j hj
    have hne : j ≠ (t.pruneListeners n).listeners := hmade ▸ Nat.ne_of_lt (hw.made j hj)
    rw [openListener, old_install hne]
    exact hspares.listener j (not_not_intro hj)

/-- A listen that succeeds opens a listener at what was asked for. -/
theorem opensAt_listen (hw : Wired t) (hnum : Numbered t)
    (hl : (t.listen n network address funnel).1 = .ok l)
    (ha : Admits t n network address funnel k es) :
    OpensAt t (t.listen n network address funnel).2 funnel k es l := by
  have h := listened_listen t n network address funnel
  generalize t.listen n network address funnel = r at h hl ⊢
  cases h with
  | opened plan files hnet hs hplan =>
    cases hl
    obtain ⟨port, hp⟩ := (planListen_start hnum hs hnet).mpr ha
    obtain rfl := Except.ok.inj (hp.symm.trans hplan)
    have hrest := rests_start t n
    have hopens := opensAt_openListener (calm_start hw n).wired n ⟨es, funnel, k, port⟩
    have hbacking : (t.start n).2.loopbackAt k = t.loopbackAt k :=
      loopbackAt_of_supply hrest.supply k
    refine ⟨?_, ?_, ?_, ?_⟩
    · exact hopens.made.trans (calm_start hw n).listeners
    · rw [← hbacking]
      exact hopens.listener
    · intro e
      rw [← hbacking, ← hrest.routes]
      exact hopens.routes e
    · intro j hj
      rw [← hrest.listener]
      exact hopens.others j (by rwa [Open, hrest.listener])
  | _ => cases hl

/-- All that a start leaves, whether it succeeds or not. -/
theorem start_leaves (t : Tailnet) (n : NodeId) : (∃ files, (t.start n).2 = { t with files }) ∨
    t.Ready n ∧ ∃ files, (t.start n).2 = { t.joined n with files } := by
  rcases start_outcomes t n with ⟨-, h⟩ | ⟨f, files, h⟩ | ⟨hready, files, h⟩ <;> rw [h]
  · exact .inl ⟨t.files, rfl⟩
  · exact .inl ⟨files, rfl⟩
  · exact .inr ⟨hready, files, rfl⟩

theorem rests_listen {f : Fault} (hf : (t.listen n network address funnel).1 = .error f) :
    Rests t (t.listen n network address funnel).2 n :=
  rests_of_start (listen_fails hf)

/-- A listener that is closed and let go of again leaves no route. -/
theorem routes_withdrawn (hw : Wired t) (hnum : Numbered t)
    (hl : (t.listen n network address funnel).1 = .ok l) :
    (((t.listen n network address funnel).2.closeListener l).releaseListener l).registry.routes =
      t.registry.routes := by
  obtain ⟨k, es, ha⟩ := (listen_ok_iff hnum).mp ⟨l, hl⟩
  have hopens := opensAt_listen hw hnum hl ha
  have hserves : ∀ e, (t.listen n network address funnel).2.Serves l e ↔ e ∈ es := by
    intro e
    rw [Serves, Open, hopens.listener]
    exact and_iff_right rfl
  have hreleased := (releaseListeners_frame ((t.listen n network address funnel).2.closeListener l)
    [l]).1
  rw [List.foldl_cons, List.foldl_nil] at hreleased
  funext e
  rw [hreleased, routes_closeListener, hopens.routes]
  by_cases he : e ∈ es
  · rw [if_pos ((hserves e).mpr he), ha.unrouted e he]
  · rw [if_neg (he ∘ (hserves e).mp), if_neg he]

end Tailnet

namespace Bridge
variable {b b' : Bridge Tailnet} {server : Handle} {a : Server} {network address : String}
  {funnel : Option FunnelMode} {n : NodeId}

structure Unopened (b b' : Bridge Tailnet) : Prop where
  routes : b'.net.registry.routes = b.net.registry.routes
  listeners : b'.listeners = b.listeners
  conns : b'.conns = b.conns

/-- A listen by a handle is the listen of its server's node. One that succeeds has a handle of its
own, and one that fails leaves all handles as they are and its reason on the server's record. -/
inductive ListensAs (b : Bridge Tailnet) (server : Handle) (network address : String)
    (funnel : Option FunnelMode) (n : NodeId) : Outcome Tailnet Handle → Prop where
  | opened (h : Handle) (l : ListenerId) (listeners : HandleTable ListenerEntry) :
    (b.net.listen n network address funnel).1 = .ok l →
    listeners.find? h = some { server, listener := l, feed := b.feeds } →
    (∀ k, k ≠ h → listeners.find? k = b.listeners.find? k) →
    ListensAs b server network address funnel n (.ok h, { b with
      net := (b.net.listen n network address funnel).2
      listeners
      feed := assign b.feed b.feeds { listener := l }
      feeds := b.feeds + 1 })
  | failed (f : Tailnet.Fault) : (b.net.listen n network address funnel).1 = .error f →
    ListensAs b server network address funnel n (.error (.fatal f.toFailure.message), { b with
      net := (b.net.listen n network address funnel).2
      servers := b.servers.modify server fun s => { s with record := ⟨f.toFailure.message⟩ } })

theorem listensAs_listen (ha : b.servers.find? server = some a) :
    ListensAs b server network address funnel a.node (b.listen server network address funnel) := by
  unfold listen
  rcases Traffic.withNode_live ha (fun n => Network.listen n network address funnel)
    (fun n => Tailnet.listen n network address funnel) (fun _ _ => rfl) with
    ⟨f, hf, he⟩ | ⟨l, hl, he⟩
  · rw [he]
    exact .failed f hf
  · rw [he]
    exact .opened _ l _ hl (HandleTable.find?_allocated ..) fun k hk =>
      (HandleTable.find?_allocate ..).trans (if_neg hk)

theorem listen_dead (hs : b.servers.find? server = none) :
    b.listen server network address funnel = (.error (.badHandle server), b) := by
  rw [listen, Traffic.withNode_dead hs]

/-- A listener for which the system has no channel or no thread is closed again. -/
theorem listenRefused_unopened (hw : b.net.Wired) (hnum : b.net.Numbered) (server : Handle)
    (network address : String) (funnel : Option FunnelMode) (f : Failure) :
    (∃ x, (b.listenRefused server network address funnel f).1 = .error x) ∧
      Unopened b (b.listenRefused server network address funnel f).2 := by
  unfold listenRefused
  rcases Traffic.withNode_worded b server (fun n => Network.listen n network address funnel)
    (fun n => Tailnet.listen n network address funnel) fun _ _ => rfl with
    ⟨e, he⟩ | ⟨s, -, ⟨g, hg, he⟩ | ⟨l, hl, he⟩⟩
  · rw [he]
    exact ⟨⟨e, rfl⟩, rfl, rfl, rfl⟩
  · rw [he]
    exact ⟨⟨_, rfl⟩, (Tailnet.rests_listen hg).routes, rfl, rfl⟩
  · rw [he]
    exact ⟨⟨_, rfl⟩, Tailnet.routes_withdrawn hw hnum hl, rfl, rfl⟩

end Bridge

namespace Custody
open Tailnet (OpensAt)
open Bridge (ListensAs Unopened)
variable {c : Custody}

/-- Where listens succeed, and what they leave. -/
structure Listening (c : Custody) (n : NodeId) (network address : String)
    (funnel : Option FunnelMode) : Prop where
  succeeds : (∃ l, (c.net.listen n network address funnel).1 = .ok l) ↔
    ∃ k es, c.net.Admits n network address funnel k es
  opens : ∀ l k es, (c.net.listen n network address funnel).1 = .ok l →
    c.net.Admits n network address funnel k es →
      OpensAt c.net (c.net.listen n network address funnel).2 funnel k es l
  fails : ∀ f, (c.net.listen n network address funnel).1 = .error f →
    (c.net.listen n network address funnel).2 = c.net ∨
      (c.net.listen n network address funnel).2 = (c.net.start n).2
  /-- Files apart, a start gives a node that is ready its number and its name, and no more. -/
  starts : (∃ files, (c.net.start n).2 = { c.net with files }) ∨
    c.net.Ready n ∧ ∃ files, (c.net.start n).2 = { c.net.joined n with files }
  rests : ∀ f, (c.net.listen n network address funnel).1 = .error f →
    c.net.Rests (c.net.listen n network address funnel).2 n
  handles : ∀ i h a, (c.tables i).servers.find? h = some a → a.node = n →
    ListensAs (c.bridge i) h network address funnel n
      ((c.bridge i).listen h network address funnel)
  dead : ∀ i h, (c.tables i).servers.find? h = none →
    (c.bridge i).listen h network address funnel = (.error (.badHandle h), c.bridge i)
  /-- Where the system refuses what a handle needs, nothing is left open. -/
  refused : ∀ i h f,
    (∃ x, ((c.bridge i).listenRefused h network address funnel f).1 = .error x) ∧
      Unopened (c.bridge i) ((c.bridge i).listenRefused h network address funnel f).2

/-- A listen opens at all that it asks for, or at nothing. -/
theorem listening_of_reachable (hr : Reachable c) (n : NodeId) (network address : String)
    (funnel : Option FunnelMode) : Listening c n network address funnel := by
  have hw := hr.intact.wired
  have hnum := hr.numbered
  exact {
    succeeds := Tailnet.listen_ok_iff hnum
    opens := fun l k es hl ha => Tailnet.opensAt_listen hw hnum hl ha
    fails := fun f hf => Tailnet.listen_fails hf
    starts := c.net.start_leaves n
    rests := fun f hf => Tailnet.rests_listen hf
    handles := by
      rintro i h a ha rfl
      exact Bridge.listensAs_listen ha
    dead := fun i h hs => Bridge.listen_dead hs
    refused := fun i h f => Bridge.listenRefused_unopened hw hnum h network address funnel f }

def halfTaken : Custody :=
  let c := newServer { net := {} } 0
  let c := c.perform 0 (.configure ⟨2752513⟩ (.hostname "db"))
  c.perform 0 (.listen ⟨2752513⟩ "tcp6" "[fd7a:115c:a1e0:0::1]:80" none)

theorem reachable_halfTaken : Reachable halfTaken := by
  have hnew : Reachable (newServer { net := {} } 0) :=
    .next (.start "bridge.ts.net" .standard true .root)
      (.newServer 0 ⟨2752513, by decide, by decide +kernel⟩)
  have hnamed := hnew.next
    (.perform 0 (.configure ⟨2752513⟩ (.hostname "db")) fun _ _ _ _ he => by cases he)
  exact hnamed.next (.perform 0 (.listen ⟨2752513⟩ "tcp6" "[fd7a:115c:a1e0:0::1]:80" none)
    fun _ _ _ _ _ => ⟨2818049, by decide, by decide +kernel⟩)

theorem listening_of_halfTaken :
    (halfTaken.net.listen 0 "tcp" ":80" none).1 =
        .error (.addressInUse "tcp" ⟨.v6 (Tailnet.hostV6 1), 80⟩) ∧
      (halfTaken.net.listen 0 "tcp4" "db:80" none).1 = .ok 1 ∧
      Listening halfTaken 0 "tcp" ":80" none :=
  ⟨by decide +kernel, by decide +kernel, listening_of_reachable reachable_halfTaken 0 _ _ none⟩

end Custody
end Handoff
