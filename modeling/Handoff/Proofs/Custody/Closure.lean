import Handoff.Proofs.Custody.Housed
import Handoff.Proofs.Custody.Integrity
import Handoff.Proofs.Traffic.Joining

namespace Handoff.Custody
open Traffic
variable {tables : Nat → Tables} {waiting : List Waiter} {log : List Event} {i : Nat}
  {b : Bridge Tailnet} {server : Handle} {s : Server} {c c' : Custody}

/-- The listener is one of the server's node, or one of its handles stands for it. -/
def Owns (b : Bridge Tailnet) (server : Handle) (s : Server) (l : ListenerId) : Prop :=
  l ∈ (b.net.node s.node).listeners ∨
    ∃ k e, b.listeners.find? k = some e ∧ e.server = server ∧ e.listener = l

structure Retires (b : Bridge Tailnet) (server : Handle) (s : Server)
    (r : Outcome Tailnet Unit) : Prop where
  answer : r.1 = .ok ()
  servers : r.2.servers = b.servers.erase server
  entries : ∀ k e, r.2.listeners.find? k = some e ↔
    b.listeners.find? k = some e ∧ e.server ≠ server
  conns : r.2.conns = b.conns
  feed : ∀ m, (∀ k e, b.listeners.find? k = some e → e.server = server → e.feed ≠ m) →
    r.2.feed m = b.feed m
  node : ∀ m, m ≠ s.node → r.2.net.node m = b.net.node m
  listener : ∀ l, ¬ Owns b server s l → r.2.net.listener l = b.net.listener l
  shut : ∀ l, Owns b server s l → ¬ r.2.net.Open l
  registry : r.2.net.registry =
    b.net.registry.forget (b.net.node s.node).addresses (b.net.node s.node).hostname

section Closing
variable (hf : Fits tables waiting log i b) (h : Houses tables i b)
  (hs : b.servers.find? server = some s)
include hf h hs

/-- Whatever the server's listeners are reached under is an address of its node. -/
theorem inside_owns : Tailnet.Inside (Owns b server s) (b.net.node s.node).addresses b.net := by
  have hhome : ∀ k e, b.listeners.find? k = some e → e.server = server →
      ∀ n, e.listener ∈ (b.net.node n).listeners → n = s.node := by
    intro k e he hes
    obtain ⟨s', hs', hn⟩ := h.here.homes k e he
    rw [hes, hs] at hs'
    obtain rfl := Option.some.inj hs'
    exact hn
  intro l hl ho
  obtain ⟨m, -, hm, haddr⟩ := hf.owned.owner l ho
  have hentry : ∃ k e, b.listeners.find? k = some e ∧ e.server = server ∧ e.listener = l := by
    rcases hl with hlisted | hentry
    · have hserved := hf.served i server s (by rwa [assign_same]) l hlisted ho
      rwa [assign_same] at hserved
    · exact hentry
  obtain ⟨k, e, he, hes, rfl⟩ := hentry
  obtain rfl := hhome k e he hes m hm
  exact haddr

/-- Up to the end of its node only the server's listeners are touched. -/
theorem spares_without :
    Tailnet.Spares (Owns b server s) (b.net.node s.node).addresses b.net (b.without server).net ∧
      ∀ m, (∀ k e, b.listeners.find? k = some e → e.server = server → e.feed ≠ m) →
        (b.without server).feed m = b.feed m := by
  have howned : ∀ k ∈ b.listenersOf server, ∀ e, b.listeners.find? k = some e →
      e.server = server := by
    intro k hk e he
    obtain ⟨e', he', hes⟩ := Bridge.mem_listenersOf.mp hk
    obtain rfl := Option.some.inj (he'.symm.trans he)
    exact hes
  have hlisteners : ∀ k ∈ b.listenersOf server, ∀ e, b.listeners.find? k = some e →
      Owns b server s e.listener := fun k hk e he => .inr ⟨k, e, he, howned k hk e he, rfl⟩
  have hin := inside_owns hf h hs
  obtain ⟨hspares, hfeeds⟩ :=
    spares_closeListeners (fits_eraseServer hf server) hin hlisteners
  exact ⟨hspares, fun m hm => hfeeds m fun k hk e he => hm k e he (howned k hk e he)⟩

theorem retires_close : Retires b server s (b.close server) := by
  let net := (b.without server).net
  obtain ⟨hspares, hfeeds⟩ := spares_without hf h hs
  obtain ⟨-, hcloses⟩ := fits_without hf server
  have hnode : net.node = b.net.node := node_without b server
  have hphase : (net.node s.node).phase ≠ .closed := by
    rw [hnode]
    exact h.here.alive server s hs
  have hlisted : ∀ l ∈ (net.node s.node).listeners, Owns b server s l := by
    rw [hnode]
    exact fun l hl => .inl hl
  obtain ⟨hok, hregistry, hlistener⟩ :=
    Tailnet.close_closed hlisted hphase (closed_without hf hs)
  have hempty : ((net.close s.node).2.node s.node).listeners = [] := by
    rw [Tailnet.node_close, if_pos ⟨rfl, hphase⟩]
  have hcalm := calm_ending hf hs
  rw [Bridge.close_some hs]
  exact {
    answer := by
      change ((net.close s.node).1.mapError Tailnet.Fault.toFailure).mapError _ = _
      rw [hok]
      rfl
    servers := hcloses.servers
    entries := fun k e => by
      refine (hcloses.listeners k e).trans (and_congr_right fun he => not_congr ?_)
      rw [Bridge.mem_listenersOf]
      constructor
      · rintro ⟨e', he', hes⟩
        obtain rfl := Option.some.inj (he'.symm.trans he)
        exact hes
      · exact fun hes => ⟨e, he, hes⟩
    conns := hcloses.conns
    feed := hfeeds
    node := fun m hm => by
      change ((net.close s.node).2.releaseNode s.node).node m = _
      rw [Tailnet.node_releaseNode, if_neg hm, Tailnet.node_close_ne hm, hnode]
    listener := fun l hl => by
      change ((net.close s.node).2.releaseNode s.node).listener l = _
      rw [Tailnet.listener_releaseNode (S := Owns b server s) (by simp [hempty]) hl,
        hlistener l hl, hspares.listener l hl]
    shut := fun l hl ho => by
      have ho := hcalm.open ho
      rcases hl with hl | ⟨k, e, he, hes, rfl⟩
      · rw [← hnode] at hl
        exact closed_without hf hs l hl ho
      · exact hcloses.closed k (Bridge.mem_listenersOf.mpr ⟨e, he, hes⟩) e he ho
    registry := by
      change ((net.close s.node).2.releaseNode s.node).registry = _
      rw [Tailnet.registry_releaseNode, hregistry, hspares.registry, hnode]
      unfold Tailnet.Registry.forget
      congr 1
      funext e
      dsimp only
      split
      · rfl
      · exact hspares.routes e ‹_› }

end Closing

/-- Where connections wait that only the server's listeners would take. -/
def Awaits (c : Custody) (i : Nat) (h : Handle) (a : Server) : Spot → Prop
  | .feed j m => j = i ∧
    ∃ k e, (c.tables i).listeners.find? k = some e ∧ e.server = h ∧ e.feed = m
  | .queue l => Owns (c.bridge i) h a l
  | _ => False

structure Refuses (c : Custody) (n : NodeId) (network address : String) : Prop where
  node : ∃ f, (c.net.dial n network address).1 = .error f
  handles : ∀ i k a, (c.tables i).servers.find? k = some a → a.node = n →
    ∃ x, ((c.bridge i).dial k network address).1 = .error x

theorem refuses_of_error {n : NodeId} {network address : String}
    (h : ∃ f, (c.net.dial n network address).1 = .error f) : Refuses c n network address := by
  refine ⟨h, ?_⟩
  rintro i k a ha rfl
  obtain ⟨f, hf⟩ := h
  have hdials := dialsAs_dial (b := c.bridge i) ha network address
  revert hdials
  generalize (c.bridge i).dial k network address = r
  intro hdials
  cases hdials with
  | connected _ _ _ hd => cases hf.symm.trans hd
  | refused x => exact ⟨x, rfl⟩

/-- What closing the server `a`, for which `h` stands in the `i`-th bridge, comes to: `c` is before
it and `c'` after. -/
structure Closure (c c' : Custody) (i : Nat) (h : Handle) (a : Server) : Prop where
  answer : ((c.bridge i).close h).1 = .ok ()
  servers : ∀ j k, (c'.tables j).servers.find? k =
    if j = i ∧ k = h then none else (c.tables j).servers.find? k
  nodes : ∀ m, m ≠ a.node → c'.net.node m = c.net.node m
  /-- No server that is left was on the same node. -/
  alone : ∀ j k s, (c'.tables j).servers.find? k = some s → s.node ≠ a.node
  entries : ∀ j k e, (c'.tables j).listeners.find? k = some e ↔
    (c.tables j).listeners.find? k = some e ∧ ¬ (j = i ∧ e.server = h)
  listeners : ∀ j k e, (c'.tables j).listeners.find? k = some e →
    c'.net.listener e.listener = c.net.listener e.listener ∧
      (c'.tables j).feed e.feed = (c.tables j).feed e.feed
  /-- Whoever closes the server waits for the pumps of its listeners. On a machine that reaches
  itself each of them has ended, and the close returns; elsewhere it may wait for ever, and `c'` is
  what it has done until then. -/
  joins : c.net.loopbackUp = true → ∀ k e, (c.tables i).listeners.find? k = some e →
    e.server = h → c.net.Open e.listener → ((c'.tables i).feed e.feed).pump = .done
  shut : ∀ l, Owns (c.bridge i) h a l → ¬ c'.net.Open l
  conns : ∀ j, (c'.tables j).conns = (c.tables j).conns
  /-- An end of a connection is as it was unless it waited for the server's listeners. -/
  ends : ∀ p d, ¬ Awaits c i h a p → d ∈ c.kept p → d ∈ c'.kept p ∧
    (c'.net.streams.own d).sent = (c.net.streams.own d).sent ∧
    (c'.net.streams.own d).ended = (c.net.streams.own d).ended ∧
    (c'.net.streams.own d).gone = (c.net.streams.own d).gone
  routes : ∀ e, c'.net.registry.routes e =
    if e.ip ∈ (c.net.node a.node).addresses then none else c.net.registry.routes e
  dialers : ∀ e, c'.net.registry.dialers e =
    (c.net.registry.dialers e).filter fun x => x.ip ∉ (c.net.node a.node).addresses
  /-- Nodes are numbered with 32 bits, so that no other has one of the addresses. -/
  others : c.net.registry.lastHost < 2 ^ 32 → ∀ m, m ≠ a.node → ∀ e x,
    (e.ip ∈ (c.net.node m).addresses →
      c'.net.registry.routes e = c.net.registry.routes e) ∧
    (x.ip ∈ (c.net.node m).addresses →
      (c'.net.registry.dialers e = some x ↔ c.net.registry.dialers e = some x))
  unreached : ∀ n network address e, e.ip ∈ (c.net.node a.node).addresses →
    (c'.net.start n).2.registry.Targets address e → Refuses c' n network address
  /-- The same holds of whatever meant one of the addresses before. -/
  forgotten : c.net.registry.lastHost + 1 < 2 ^ 32 → ∀ n network address e,
    e.ip ∈ (c.net.node a.node).addresses → c.net.registry.Targets address e →
      Refuses c' n network address

theorem names_forget {r : Tailnet.Registry} {ips : List Address} {hostname x : String} {v : V4}
    (h : (r.forget ips hostname).names x = some v) : r.names x = some v := by
  simp only [Tailnet.Registry.forget] at h
  cases hn : r.names hostname with
  | none =>
    rw [hn] at h
    exact h
  | some ip =>
    rw [hn] at h
    dsimp only at h
    split at h
    · rw [assign_apply] at h
      split at h
      · cases h
      · exact h
    · exact h

section Reached
variable {h : Handle} {a : Server} (hr : Reachable c)
  (ha : (c.tables i).servers.find? h = some a)
include hr ha

/-- The listeners of other handles are none of the server's. -/
theorem not_owns {j : Nat} {k : Handle} {e : ListenerEntry}
    (he : (c.tables j).listeners.find? k = some e) (hne : ¬ (j = i ∧ e.server = h)) :
    ¬ Owns (c.bridge i) h a e.listener := by
  have hs := hr.intact
  rintro (hlisted | ⟨k', e', he', hes, hl⟩)
  · obtain ⟨s, hserver, hhome⟩ := (hr.housed.lodged j).homes k e he
    exact hne (hs.apart j i e.server h s a hserver ha (hhome a.node hlisted).symm)
  · -- a listener has one feed, and a feed one handle
    obtain ⟨hlt, hfeed⟩ := hs.entries j k e he
    obtain ⟨hlt', hfeed'⟩ := hs.entries i k' e' he'
    obtain ⟨rfl, hsame⟩ := hs.split j i e.feed e'.feed hlt hlt'
      (hfeed.trans (hl.symm.trans hfeed'.symm))
    obtain rfl := hs.single j k k' e e' he he' hsame
    obtain rfl := Option.some.inj (he.symm.trans he')
    exact hne ⟨rfl, hes⟩

theorem retires_of_reachable : Retires (c.bridge i) h a ((c.bridge i).close h) :=
  retires_close (fits_bridge hr.intact i) (houses_bridge hr.housed i) ha

theorem feed_close {j : Nat} {m : FeedId} (hp : ¬ Awaits c i h a (.feed j m)) :
    ((c.perform i (.close h)).tables j).feed m = (c.tables j).feed m := by
  have hret := retires_of_reachable hr ha
  exact tables_perform (c := c) (i := i) (v := .close h)
    (P := fun j T T' => ¬ Awaits c i h a (.feed j m) → T'.feed m = T.feed m)
    (fun hno => hret.feed m fun k e he hes hm => hno ⟨rfl, k, e, he, hes, hm⟩)
    (fun _ _ _ _ => rfl) j hp

theorem conns_close (j : Nat) :
    ((c.perform i (.close h)).tables j).conns = (c.tables j).conns :=
  tables_perform (c := c) (i := i) (v := .close h) (P := fun _ T T' => T'.conns = T.conns)
    (retires_of_reachable hr ha).conns (fun _ _ _ => rfl) j

/-- What waits for anybody else still does. -/
theorem kept_close {p : Spot} (hp : ¬ Awaits c i h a p) :
    (c.perform i (.close h)).kept p = c.kept p := by
  have hret := retires_of_reachable hr ha
  cases p with
  | hand =>
    have hgiven : (c.perform i (.close h)).hand = c.hand ++ [] :=
      congrArg (c.hand ++ ·) (Bridge.given_ending (r := (c.bridge i).close h) nofun)
    exact hgiven.trans (List.append_nil _)
  | conns j =>
    exact congrArg (fun t : HandleTable Conn => t.entries.map Conn.descriptor)
      (conns_close hr ha j)
  | feed j m => exact congrArg Feed.kept (feed_close hr ha hp)
  | queue l => exact congrArg Tailnet.Listener.queued (hret.listener l hp)

omit hr in
theorem servers_close (j : Nat) (k : Handle) :
    ((c.perform i (.close h)).tables j).servers.find? k =
      if j = i ∧ k = h then none else (c.tables j).servers.find? k :=
  tables_perform (c := c) (i := i) (v := .close h)
    (P := fun j T T' => ∀ k, T'.servers.find? k =
      if j = i ∧ k = h then none else T.servers.find? k)
    (fun k => by
      simp only [true_and]
      exact find?_close (b := c.bridge i) ha k)
    (fun j _ hj k => (if_neg fun hk => hj hk.1).symm) j k

theorem entries_close (j : Nat) (k : Handle) (e : ListenerEntry) :
    ((c.perform i (.close h)).tables j).listeners.find? k = some e ↔
      (c.tables j).listeners.find? k = some e ∧ ¬ (j = i ∧ e.server = h) := by
  have hret := retires_of_reachable hr ha
  exact tables_perform (c := c) (i := i) (v := .close h)
    (P := fun j T T' => ∀ k e, T'.listeners.find? k = some e ↔
      T.listeners.find? k = some e ∧ ¬ (j = i ∧ e.server = h))
    (fun k e => by
      simp only [true_and]
      exact hret.entries k e)
    (fun j _ hj k e => ⟨fun he => ⟨he, fun hk => hj hk.1⟩, And.left⟩) j k e

theorem registry_close : (c.perform i (.close h)).net.registry =
    c.net.registry.forget (c.net.node a.node).addresses (c.net.node a.node).hostname :=
  (retires_of_reachable hr ha).registry

theorem routes_close (e : Endpoint) : (c.perform i (.close h)).net.registry.routes e =
    if e.ip ∈ (c.net.node a.node).addresses then none else c.net.registry.routes e := by
  rw [registry_close hr ha]
  rfl

theorem dialers_close (e : Endpoint) : (c.perform i (.close h)).net.registry.dialers e =
    (c.net.registry.dialers e).filter fun x => x.ip ∉ (c.net.node a.node).addresses := by
  rw [registry_close hr ha]
  rfl

/-- What listeners have that keep their handles stays. -/
theorem listeners_close {j : Nat} {k : Handle} {e : ListenerEntry}
    (he : ((c.perform i (.close h)).tables j).listeners.find? k = some e) :
    (c.perform i (.close h)).net.listener e.listener = c.net.listener e.listener ∧
      ((c.perform i (.close h)).tables j).feed e.feed = (c.tables j).feed e.feed := by
  obtain ⟨hold, hne⟩ := (entries_close hr ha j k e).mp he
  refine ⟨(retires_of_reachable hr ha).listener e.listener (not_owns hr ha hold hne),
    feed_close hr ha ?_⟩
  rintro ⟨rfl, k', e', he', hes, hfeed⟩
  obtain rfl := hr.intact.single j k' k e' e he' hold hfeed
  obtain rfl := Option.some.inj (he'.symm.trans hold)
  exact hne ⟨rfl, hes⟩

/-- The pumps of its listeners end with the server. -/
theorem joins_closed (hup : c.net.loopbackUp = true) {k : Handle} {e : ListenerEntry}
    (he : (c.tables i).listeners.find? k = some e) (hes : e.server = h)
    (ho : c.net.Open e.listener) :
    (((c.perform i (.close h)).tables i).feed e.feed).pump = .done := by
  subst hes
  have hdone := joins_close (fits_bridge hr.intact i) he ho hup ha
  have hbridge := congrArg Bridge.toTables (bridge_perform c i (.close e.server))
  rw [show (c.perform i (.close e.server)).tables i = _ from hbridge]
  exact hdone

theorem ends_close {p : Spot} {d : Descriptor} (hp : ¬ Awaits c i h a p) (hd : d ∈ c.kept p) :
    d ∈ (c.perform i (.close h)).kept p ∧
      ((c.perform i (.close h)).net.streams.own d).sent = (c.net.streams.own d).sent ∧
      ((c.perform i (.close h)).net.streams.own d).ended = (c.net.streams.own d).ended ∧
      ((c.perform i (.close h)).net.streams.own d).gone = (c.net.streams.own d).gone := by
  have hacc := (carries_perform hr.known.held i (.close h)).accounted
  have hmade := hr.known.held.made hd
  rw [← kept_close hr ha hp] at hd
  refine ⟨hd, hacc.sent d, ?_, hacc.gone d hmade⟩
  rw [Bool.eq_iff_iff]
  constructor
  · intro hended
    rcases hacc.ended d hended with ⟨-, hwas⟩ | hz
    · exact hwas
    · -- the copy that is kept is open
      exact absurd hz (Nat.ne_of_gt (hacc.holders_pos hd))
  · exact hacc.stays d hmade

theorem others_close (hlast : c.net.registry.lastHost < 2 ^ 32) {m : NodeId} (hm : m ≠ a.node)
    (e x : Endpoint) :
    (e.ip ∈ (c.net.node m).addresses →
      (c.perform i (.close h)).net.registry.routes e = c.net.registry.routes e) ∧
    (x.ip ∈ (c.net.node m).addresses →
      ((c.perform i (.close h)).net.registry.dialers e = some x ↔
        c.net.registry.dialers e = some x)) := by
  have hapart : ∀ ip, ip ∈ (c.net.node m).addresses → ip ∉ (c.net.node a.node).addresses :=
    fun ip hip hin => hm (hr.intact.owned.address_unique hlast hin hip)
  constructor
  · intro he
    rw [routes_close hr ha, if_neg (hapart _ he)]
  · intro hx
    rw [dialers_close hr ha, Option.filter_eq_some_iff]
    simp [hapart _ hx]

/-- Names that are known after the close were known before it. -/
theorem forgotten_close (hlast : c.net.registry.lastHost + 1 < 2 ^ 32) (n : NodeId)
    (network : String) {address : String} {e : Endpoint}
    (he : e.ip ∈ (c.net.node a.node).addresses) (ht : c.net.registry.Targets address e) :
    ∃ f, ((c.perform i (.close h)).net.dial n network address).1 = .error f := by
  have hsound := (hr.next (.perform i (.close h) fun _ _ _ _ he => by cases he)).intact
  refine Tailnet.dial_forgotten hsound.wired hsound.owned ?_ (r := c.net.registry) ?_ ht
    (by rw [routes_close hr ha, if_pos he])
  · rw [registry_close hr ha]
    exact hlast
  · intro x v hv
    rw [registry_close hr ha] at hv
    exact names_forget hv

/-- No server that is left was on the same node. -/
theorem alone_close {j : Nat} {k : Handle} {s : Server}
    (hk : ((c.perform i (.close h)).tables j).servers.find? k = some s) : s.node ≠ a.node := by
  intro he
  rw [servers_close ha] at hk
  split at hk
  · cases hk
  · rename_i hne
    exact hne (hr.intact.apart j i k h s a hk ha he)

/-- Closing a server retires its handle and those of its listeners, and takes what leads to it off
the tailnet; nobody else is touched. -/
theorem closure_of_reachable : Closure c (c.perform i (.close h)) i h a := by
  have hret := retires_of_reachable hr ha
  exact {
    answer := hret.answer
    servers := servers_close ha
    nodes := hret.node
    alone := fun _ _ _ => alone_close hr ha
    entries := entries_close hr ha
    listeners := fun _ _ _ => listeners_close hr ha
    joins := fun hup _ _ => joins_closed hr ha hup
    shut := hret.shut
    conns := conns_close hr ha
    ends := fun _ _ => ends_close hr ha
    routes := routes_close hr ha
    dialers := dialers_close hr ha
    others := fun hlast _ => others_close hr ha hlast
    unreached := fun n network address e he ht =>
      refuses_of_error (Tailnet.dial_unrouted ht (by rw [routes_close hr ha, if_pos he]))
    forgotten := fun hlast n network address e he ht =>
      refuses_of_error (forgotten_close hr ha hlast n network he ht) }

end Reached

def paired : Custody :=
  let c := newServer { net := {} } 0
  let c := c.newServer 0
  let c := c.perform 0 (.listen ⟨2752513⟩ "tcp" ":80" none)
  let c := c.perform 0 (.listen ⟨2752513⟩ "tcp" ":443" (some .shared))
  let c := c.perform 0 (.listen ⟨2752514⟩ "tcp" ":80" none)
  let c := c.perform 0 (.dial ⟨2752514⟩ "tcp" "100.64.0.1:80")
  let c := c.perform 0 (.dial ⟨2752514⟩ "tcp" "100.64.0.1:80")
  let c : Custody := { c with toTraffic := c.toTraffic.pump 0 0 }
  let c : Custody := { c with toTraffic := c.toTraffic.pump 0 0 }
  let c : Custody := { c with toTraffic := c.toTraffic.pump 0 0 }
  let c : Custody := { c with toTraffic := c.toTraffic.pump 0 0 }
  c.perform 0 (.acceptNonblocking ⟨2818049⟩)

theorem reachable_paired : Reachable paired := by
  have hfirst : Reachable (newServer { net := {} } 0) :=
    .next (.start "bridge.ts.net" .standard true .root)
      (.newServer 0 ⟨2752513, by decide, by decide +kernel⟩)
  have hservers := hfirst.next (.newServer 0 ⟨2752514, by decide, by decide +kernel⟩)
  have hlistens := hservers.next (.perform 0 (.listen ⟨2752513⟩ "tcp" ":80" none)
    fun _ _ _ _ _ => ⟨2818049, by decide, by decide +kernel⟩)
  have hfunnels := hlistens.next (.perform 0 (.listen ⟨2752513⟩ "tcp" ":443" (some .shared))
    fun _ _ _ _ _ => ⟨2818050, by decide, by decide +kernel⟩)
  have hothers := hfunnels.next (.perform 0 (.listen ⟨2752514⟩ "tcp" ":80" none)
    fun _ _ _ _ _ => ⟨2818051, by decide, by decide +kernel⟩)
  have hdials := hothers.next (.perform 0 (.dial ⟨2752514⟩ "tcp" "100.64.0.1:80")
    fun _ _ _ _ he => by cases he)
  have hagain := hdials.next (.perform 0 (.dial ⟨2752514⟩ "tcp" "100.64.0.1:80")
    fun _ _ _ _ he => by cases he)
  have hpumps := (((hagain.next (.pump 0 0 (by decide +kernel))).next
    (.pump 0 0 (by decide +kernel))).next (.pump 0 0 (by decide +kernel))).next
    (.pump 0 0 (by decide +kernel))
  exact hpumps.next (.perform 0 (.acceptNonblocking ⟨2818049⟩) fun _ _ _ _ he => by cases he)

theorem closure_of_paired : (paired.tables 0).listeners.handles.length = 3 ∧
    (paired.tables 0).conns.handles.length = 3 ∧
    ∃ a, (paired.tables 0).servers.find? ⟨2752513⟩ = some a ∧
      Closure paired (paired.perform 0 (.close ⟨2752513⟩)) 0 ⟨2752513⟩ a := by
  obtain ⟨a, ha⟩ : ∃ a, (paired.tables 0).servers.find? ⟨2752513⟩ = some a :=
    Option.isSome_iff_exists.mp (by decide +kernel)
  exact ⟨by decide +kernel, by decide +kernel, a, ha, closure_of_reachable reachable_paired ha⟩

end Handoff.Custody
