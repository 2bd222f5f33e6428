import Handoff.Proofs.Traffic.System

namespace Handoff

/-- The connection a pump has taken from its listener and not yet handed over. -/
def Pump.held : Pump → Option Descriptor
  | accepting (.arrived d) | holding d => some d
  | _ => none

def Tailnet.Listener.queued (l : Tailnet.Listener) : List Descriptor :=
  l.backlog.map fun a => ⟨a.stream, .far⟩

namespace Traffic

/-- The other ends of the connections that dials left at a listener, in the order they were made. -/
def dialedTo (log : List Event) (l : ListenerId) : List Descriptor :=
  log.filterMap fun
    | .dialed _ k id => if k = l then some ⟨id, .far⟩ else none
    | .accepted .. => none

def acceptedAt (log : List Event) (l : ListenerId) : List (Nat × Conn) :=
  log.filterMap fun
    | .dialed .. => none
    | .accepted k i c => if k = l then some (i, c) else none

def streamsOf (log : List Event) : List StreamId :=
  log.filterMap fun
    | .dialed _ _ id => some id
    | .accepted .. => none

/-- What is between the dials to an open listener and the accepts by its handle `h`. -/
structure Line (net : Tailnet) (log : List Event) (f : Feed) (i : Nat) (h : Handle)
    (e : ListenerEntry) : Prop where
  receiver : f.channel.receiverOpen = true
  sender : f.channel.senderOpen = true
  marked : ∀ m ∈ f.channel.queue, ∃ d, m = ⟨1, [d]⟩
  moving : ∃ phase, f.pump = .accepting phase ∨ ∃ d, f.pump = .holding d
  balance : dialedTo log e.listener =
    (acceptedAt log e.listener).map (·.2.descriptor) ++ f.channel.pending ++ f.pump.held.toList ++
      (net.listener e.listener).queued
  records : ∀ p ∈ acceptedAt log e.listener,
    p.1 = i ∧ p.2.listener = some h ∧ p.2.server = e.server

/-- Bridges and tailnet fit together: handles stand for nodes and listeners of their own, every open
listener of a bridge's node has its handle, and no connection is lost on its way. -/
structure Sound (net : Tailnet) (tables : Nat → Tables) (waiting : List Waiter)
    (log : List Event) : Prop where
  wired : net.Wired
  owned : net.Owned
  tidy : ∀ i, (tables i).listeners.Tidy
  unmade : ∀ n, net.nodes ≤ n → (net.node n).listeners = []
  nodes : ∀ i h a, (tables i).servers.find? h = some a → a.node < net.nodes
  apart : ∀ i j h k a b, (tables i).servers.find? h = some a → (tables j).servers.find? k = some b →
    a.node = b.node → i = j ∧ h = k
  feeds : ∀ i k, k < (tables i).feeds → ((tables i).feed k).listener < net.listeners
  split : ∀ i j k m, k < (tables i).feeds → m < (tables j).feeds →
    ((tables i).feed k).listener = ((tables j).feed m).listener → i = j ∧ k = m
  entries : ∀ i h e, (tables i).listeners.find? h = some e →
    e.feed < (tables i).feeds ∧ ((tables i).feed e.feed).listener = e.listener
  single : ∀ i h k a b, (tables i).listeners.find? h = some a →
    (tables i).listeners.find? k = some b → a.feed = b.feed → h = k
  served : ∀ i h a, (tables i).servers.find? h = some a →
    ∀ l ∈ (net.node a.node).listeners, net.Open l →
      ∃ k e, (tables i).listeners.find? k = some e ∧ e.server = h ∧ e.listener = l
  waits : ∀ w ∈ waiting, w.place.feed < (tables w.bridge).feeds ∧
    ∀ h e, (tables w.bridge).listeners.find? h = some e → e.feed = w.place.feed →
      h = w.place.listener ∧ e.server = w.place.server
  lines : ∀ i h e, (tables i).listeners.find? h = some e → net.Open e.listener →
    Line net log ((tables i).feed e.feed) i h e
  dialed : ∀ target l id, .dialed target l id ∈ log → l < net.listeners ∧
    id < net.streams.count ∧ (net.Open l → target ∈ (net.listener l).addresses)
  accepted : ∀ l i c, .accepted l i c ∈ log → l < net.listeners
  fresh : (streamsOf log).Nodup

section Update
variable {net net' : Tailnet} {tables tables' : Nat → Tables} {waiting : List Waiter}
  {log log' : List Event}

structure Shaped (a b : Tables) : Prop where
  nodes : ∀ h, (b.servers.find? h).map Server.node = (a.servers.find? h).map Server.node
  listeners : b.listeners = a.listeners
  feeds : b.feeds = a.feeds
  same : ∀ k, (b.feed k).listener = (a.feed k).listener

structure Alike (a b : Tables) : Prop extends Shaped a b where
  feed : b.feed = a.feed

theorem Shaped.trans {a b c : Tables} (h : Shaped a b) (h' : Shaped b c) : Shaped a c where
  nodes := fun k => (h'.nodes k).trans (h.nodes k)
  listeners := h'.listeners.trans h.listeners
  feeds := h'.feeds.trans h.feeds
  same := fun k => (h'.same k).trans (h.same k)

theorem Alike.of_eq {a b : Tables}
    (hn : ∀ h, (b.servers.find? h).map Server.node = (a.servers.find? h).map Server.node)
    (hl : b.listeners = a.listeners) (hf : b.feed = a.feed) (hs : b.feeds = a.feeds) : Alike a b :=
  ⟨⟨hn, hl, hs, fun _ => by rw [hf]⟩, hf⟩

theorem Alike.refl (a : Tables) : Alike a a :=
  .of_eq (fun _ => rfl) rfl rfl rfl

theorem Alike.trans {a b c : Tables} (h : Alike a b) (h' : Alike b c) : Alike a c :=
  ⟨h.toShaped.trans h'.toShaped, h'.feed.trans h.feed⟩

theorem Shaped.find? {a b : Tables} (h : Shaped a b) {k : Handle} {s : Server}
    (hs : b.servers.find? k = some s) : ∃ s', a.servers.find? k = some s' ∧ s'.node = s.node := by
  have hn := h.nodes k
  rw [hs] at hn
  exact Option.map_eq_some_iff.mp hn.symm

/-- No node is made or given up and no listener opened: only what goes through the feeds and what
happened has to be looked at. -/
theorem Sound.reshape (h : Sound net tables waiting log) (hk : net.Kept net')
    (ho : ∀ l, net'.Open l → net.Open l) (ht : ∀ i, Shaped (tables i) (tables' i))
    (hlines : ∀ i k e, (tables i).listeners.find? k = some e → net'.Open e.listener →
      Line net' log' ((tables' i).feed e.feed) i k e)
    (hdialed : ∀ target l id, .dialed target l id ∈ log' → l < net.listeners ∧
      id < net'.streams.count ∧ (net'.Open l → target ∈ (net'.listener l).addresses))
    (haccepted : ∀ l i c, .accepted l i c ∈ log' → l < net.listeners)
    (hfresh : (streamsOf log').Nodup) : Sound net' tables' waiting log' where
  wired := hk.wired
  owned := hk.owned h.owned
  tidy := fun i => (ht i).listeners ▸ h.tidy i
  unmade := fun n hn => by
    have hl := hk.lists n
    rw [h.unmade n (Nat.le_trans hk.nodes hn)] at hl
    exact List.subset_nil.mp hl
  nodes := fun i k a ha => by
    obtain ⟨b, hb, hn⟩ := (ht i).find? ha
    exact hn ▸ Nat.lt_of_lt_of_le (h.nodes i k b hb) hk.nodes
  apart := fun i j k m a b ha hb hn => by
    obtain ⟨a', ha', hna⟩ := (ht i).find? ha
    obtain ⟨b', hb', hnb⟩ := (ht j).find? hb
    exact h.apart i j k m a' b' ha' hb' (hna.trans (hn.trans hnb.symm))
  feeds := fun i k hi => by
    rw [(ht i).same, hk.listeners]
    exact h.feeds i k ((ht i).feeds ▸ hi)
  split := fun i j k m hi hj he => by
    rw [(ht i).same, (ht j).same] at he
    exact h.split i j k m ((ht i).feeds ▸ hi) ((ht j).feeds ▸ hj) he
  entries := fun i k e he => by
    rw [(ht i).same, (ht i).feeds]
    exact h.entries i k e ((ht i).listeners ▸ he)
  single := fun i k m a b ha hb =>
    h.single i k m a b ((ht i).listeners ▸ ha) ((ht i).listeners ▸ hb)
  served := fun i k a ha l hl hlo => by
    obtain ⟨b, hb, hn⟩ := (ht i).find? ha
    rw [(ht i).listeners]
    exact h.served i k b hb l (hn ▸ hk.lists _ hl) (ho l hlo)
  waits := fun w hw => by
    rw [(ht w.bridge).feeds, (ht w.bridge).listeners]
    exact h.waits w hw
  lines := fun i k e he => hlines i k e ((ht i).listeners ▸ he)
  dialed := fun target l id hm => hk.listeners ▸ hdialed target l id hm
  accepted := fun l i c hm => hk.listeners ▸ haccepted l i c hm
  fresh := hfresh

/-- The network does something that opens no listener and brings no connection, and nothing that
matters changes in any bridge. -/
theorem Sound.calm (h : Sound net tables waiting log) (hc : net.Calm net')
    (ht : ∀ i, Alike (tables i) (tables' i)) : Sound net' tables' waiting log := by
  refine h.reshape hc.toKept (fun _ => hc.open) (fun i => (ht i).toShaped) ?_ ?_ h.accepted h.fresh
  · intro i k e he ho
    have hline := h.lines i k e he (hc.open ho)
    rw [(ht i).feed]
    exact { hline with balance := by rw [hline.balance, hc.steady _ ho] }
  · intro target l id hm
    obtain ⟨hl, hid, hs⟩ := h.dialed target l id hm
    refine ⟨hl, Nat.lt_of_lt_of_le hid hc.count, fun ho => ?_⟩
    rw [hc.steady l ho]
    exact hs (hc.open ho)

theorem Sound.still (h : Sound net tables waiting log) (hc : net.Calm net') :
    Sound net' tables waiting log :=
  h.calm hc fun _ => .refl _

end Update

section Bridge
variable {tables : Nat → Tables} {waiting : List Waiter} {log : List Event} {i : Nat}

def Fits (tables : Nat → Tables) (waiting : List Waiter) (log : List Event) (i : Nat)
    (b : Bridge Tailnet) : Prop :=
  Sound b.net (assign tables i b.toTables) waiting log

/-- The network does something, and nothing that matters changes in the bridge. -/
theorem Fits.update {b b' : Bridge Tailnet} (h : Fits tables waiting log i b)
    (hc : b.net.Calm b'.net) (ha : Alike b.toTables b'.toTables) :
    Fits tables waiting log i b' := by
  refine Sound.calm h hc fun j => ?_
  by_cases hj : j = i
  · subst j
    rwa [assign_same, assign_same]
  · rw [assign_of_ne _ _ _ hj, assign_of_ne _ _ _ hj]
    exact .refl _

end Bridge
end Traffic
end Handoff
