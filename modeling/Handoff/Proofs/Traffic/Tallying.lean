import Handoff.Proofs.Bridge.Readiness
import Handoff.Proofs.Tailnet.Relinquishing

namespace Handoff

namespace Feed
open Tailnet (Holds Retains)
variable {f f' : Feed} {t t' : Tailnet} {l : ListenerId} {n : Nat}

/-- A pump takes connections from its listener, which it holds on to. -/
theorem holds_advance (h : f.Advance t f' t') (l : ListenerId) : Holds l t t' := by
  cases h with
  | arrive _ hb =>
    apply Tailnet.holds_setBacklog
    rw [hb]
    exact List.subset_cons_self ..
  | discard => exact (Tailnet.retains_closeStream t l _).toHolds
  | giveUp => exact (Tailnet.retains_closeStream t l _).toHolds
  | leave => exact Tailnet.holds_closeListener t l _
  | _ => exact .refl l t

theorem retains_advance (hw : t.Wired) (hl : f.listener ≠ l) (h : f.Advance t f' t') :
    Retains l t t' := by
  cases h with
  | arrive => exact Tailnet.retains_setListener hl
  | discard => exact Tailnet.retains_closeStream t l _
  | giveUp => exact Tailnet.retains_closeStream t l _
  | leave => exact Tailnet.retains_closeListener hw l _
  | _ => exact .refl l t

theorem holds_steps (n : Nat) (f : Feed) (t : Tailnet) (l : ListenerId) :
    Holds l t (f.steps n t).2 :=
  steps_keep (P := fun _ u => Holds l t u) (fun _ _ _ _ h ha => h.trans (holds_advance ha l)) n
    (.refl l t)

theorem retains_steps (n : Nat) (hw : t.Wired) (hl : f.listener ≠ l) :
    Retains l t (f.steps n t).2 := by
  refine (steps_keep (P := fun g u => g.listener = f.listener ∧ u.Wired ∧ Retains l t u) ?_ n
    ⟨rfl, hw, .refl l t⟩).2.2
  rintro g u g' u' ⟨hg, hu, hr⟩ ha
  have hw' : u'.Wired := by
    rcases Traffic.moves_advance hu ha with ⟨_, hmoves⟩ | ⟨hcalm, -⟩
    · exact hmoves.wired
    · exact hcalm.wired
  exact ⟨(listener_advance ha).trans hg, hw', hr.trans (retains_advance hu (hg ▸ hl) ha)⟩

end Feed

namespace Bridge
open Tailnet (Holds Retains Queues)
variable {b : Bridge Tailnet} {l : ListenerId} {k : FeedId}

theorem retains_sweep (b : Bridge Tailnet) (l : ListenerId) (k : FeedId) :
    Retains l b.net (b.sweep k).net :=
  Tailnet.retains_closeAll b.net l _

/-- The connections that were not accepted go with the channel. -/
theorem queues_endFeed (b : Bridge Tailnet) (l : ListenerId) (k : FeedId) :
    Queues l b.net (b.endFeed k).net := by
  let f : Feed := { b.feed k with channel := (b.feed k).channel.shutdown }
  let r := f.run b.net
  have hrun : Holds l b.net r.2 := Feed.holds_steps _ f b.net l
  have hreleased := Tailnet.queues_releaseListener r.2 l r.1.listener
  exact (hrun.toQueues.trans hreleased).trans (retains_sweep (b.stopFeed k) l k).toQueues

theorem retains_endFeed (hw : b.net.Wired) (hk : (b.feed k).listener ≠ l) :
    Retains l b.net (b.endFeed k).net := by
  let f : Feed := { b.feed k with channel := (b.feed k).channel.shutdown }
  let r := f.run b.net
  have hrun : Retains l b.net r.2 := Feed.retains_steps _ hw hk
  have hl : r.1.listener = (b.feed k).listener := Feed.listener_steps ..
  have hreleased := Tailnet.retains_releaseListener r.2 (hl.trans_ne hk)
  exact (hrun.trans hreleased).trans (retains_sweep (b.stopFeed k) l k)

end Bridge

namespace Traffic
open Tailnet (Queues Retains Tends)
variable {l : ListenerId} {T T' : Tables} {b b' b'' : Bridge Tailnet} {tables : Nat → Tables}
  {waiting : List Waiter} {log : List Event} {i : Nat} {α : Type}

def Stays (l : ListenerId) (T T' : Tables) : Prop :=
  ∀ h e, T.listeners.find? h = some e → e.listener = l → T'.listeners.find? h = some e

def Still (l : ListenerId) (T T' : Tables) : Prop :=
  ∀ k, k < T'.feeds → (T'.feed k).listener = l →
    k < T.feeds ∧ (T.feed k).listener = l ∧ (T'.feed k).pump = (T.feed k).pump

/-- As long as its handle stays, a bridge neither lets go of the listener nor takes a connection
from it. -/
structure Minds (l : ListenerId) (b b' : Bridge Tailnet) : Prop extends
    Queues l b.net b'.net where
  handles : Stays l b'.toTables b.toTables
  tends : Stays l b.toTables b'.toTables → Tends l b.net b'.net
  still : Stays l b.toTables b'.toTables → Still l b.toTables b'.toTables

theorem Still.refl (l : ListenerId) (T : Tables) : Still l T T :=
  fun _ hk hl => ⟨hk, hl, rfl⟩

theorem Still.trans {T'' : Tables} (h : Still l T T') (h' : Still l T' T'') : Still l T T'' := by
  intro k hk hl
  obtain ⟨hk', hl', hp'⟩ := h' k hk hl
  obtain ⟨hk, hl, hp⟩ := h k hk' hl'
  exact ⟨hk, hl, hp'.trans hp⟩

theorem Minds.trans (h : Minds l b b') (h' : Minds l b' b'') : Minds l b b'' where
  toQueues := h.toQueues.trans h'.toQueues
  handles := fun k e he hl => h.handles k e (h'.handles k e he hl) hl
  tends := fun hs =>
    (h.tends fun k e he hl => h'.handles k e (hs k e he hl) hl).trans
      (h'.tends fun k e he hl => hs k e (h.handles k e he hl) hl)
  still := fun hs =>
    (h.still fun k e he hl => h'.handles k e (hs k e he hl) hl).trans
      (h'.still fun k e he hl => hs k e (h.handles k e he hl) hl)

/-- No listener comes or goes, and its pump is left alone. -/
theorem minds_of (hn : Tends l b.net b'.net) (hl : b'.listeners = b.listeners)
    (hf : b'.feeds = b.feeds) (hp : ∀ k, (b'.feed k).listener = (b.feed k).listener ∧
      (b'.feed k).pump = (b.feed k).pump) : Minds l b b' where
  toQueues := hn.toQueues
  handles := fun _ _ he _ => hl ▸ he
  tends := fun _ => hn
  still := fun _ k hk hlistener => ⟨hf ▸ hk, (hp k).1.symm.trans hlistener, (hp k).2⟩

theorem Minds.refl (l : ListenerId) (b : Bridge Tailnet) : Minds l b b :=
  minds_of (.refl l b.net) rfl rfl fun _ => ⟨rfl, rfl⟩

theorem minds_net {net : Tailnet} (hn : Tends l b.net net) : Minds l b { b with net } :=
  minds_of hn rfl rfl fun _ => ⟨rfl, rfl⟩

theorem minds_servers (b : Bridge Tailnet) (l : ListenerId) (servers : HandleTable Server) :
    Minds l b { b with servers } :=
  minds_of (.refl l b.net) rfl rfl fun _ => ⟨rfl, rfl⟩

theorem minds_conns (b : Bridge Tailnet) (l : ListenerId) (conns : HandleTable Conn) :
    Minds l b { b with conns } :=
  minds_of (.refl l b.net) rfl rfl fun _ => ⟨rfl, rfl⟩

theorem minds_record (b : Bridge Tailnet) (l : ListenerId) (server : Handle) (text : String) :
    Minds l b (b.record server text) :=
  minds_servers b l _

theorem minds_refuse (b : Bridge Tailnet) (l : ListenerId) (server : Handle) (e : BridgeError) :
    Minds l b (b.refuse (α := α) server e).2 := by
  unfold Bridge.refuse
  split
  · exact minds_record b l server _
  · exact minds_record b l server _
  · exact .refl l b

section Asking

theorem minds_withNode (hw : b.net.Wired) (l : ListenerId) (server : Handle)
    (op : NodeId → Tailnet → Except Failure α × Tailnet) (v : Tailnet.NodeVerb)
    (hop : ∀ n t, (op n t).2 = (Tailnet.ask t n v).2) : Minds l b (b.withNode server op).2 := by
  have hask : ∀ n, Tends l b.net (op n b.net).2 := by
    intro n
    rw [hop]
    exact Tailnet.tends_ask hw l n v
  rcases withNode_cases b server op with ⟨e, he⟩ | ⟨s, -, ⟨f, net, hs, he⟩ | ⟨a, net, hs, he⟩⟩ <;>
    rw [he]
  · exact .refl l b
  · have hn := hask s.node
    rw [hs] at hn
    exact (minds_net hn).trans (minds_record _ l server f.message)
  · have hn := hask s.node
    rw [hs] at hn
    exact minds_net hn

theorem minds_asks (hw : b.net.Wired) (l : ListenerId) (ha : b.Asks b') : Minds l b b' := by
  induction ha with
  | nothing => exact .refl l b
  | asked n v _ ha ih =>
    exact ih.trans (minds_net (Tailnet.tends_ask (quiet_asks hw ha).calm.wired l n v))
  | noted server text _ ih => exact ih.trans (minds_record _ l server text)

theorem minds_dial (hw : b.net.Wired) (l : ListenerId) (server : Handle)
    (network address : String) : Minds l b (b.dial server network address).2 := by
  have hnode := minds_withNode hw l server (fun n => Network.dial n network address)
    (.dial network address) fun _ _ => rfl
  unfold Bridge.dial
  revert hnode
  generalize (b.withNode server fun n => Network.dial n network address) = r
  obtain ⟨r, b₁⟩ := r
  intro hnode
  cases r with
  | error e => exact hnode
  | ok d => exact hnode.trans (minds_conns b₁ l _)

/-- The handle of a new listener is another's. -/
theorem minds_addListener {k : ListenerId} (hk : l ≠ k) (b : Bridge Tailnet) (server : Handle) :
    Minds l b (b.addListener server k).2 where
  toQueues := .refl l b.net
  handles := fun m e he hl => by
    change (b.listeners.allocate _).2.find? m = some e at he
    rw [HandleTable.find?_allocate] at he
    split at he
    · cases he
      exact absurd hl.symm hk
    · exact he
  tends := fun _ => .refl l b.net
  still := fun _ m hm hl => by
    change m < b.feeds + 1 at hm
    change (assign b.feed b.feeds { listener := k } m).listener = l at hl
    change _ ∧ _ ∧ (assign b.feed b.feeds { listener := k } m).pump = _
    rw [assign_apply] at hl ⊢
    split at hl
    · exact absurd hl.symm hk
    · rename_i hne
      rw [if_neg hne]
      exact ⟨Nat.lt_of_le_of_ne (Nat.le_of_lt_succ hm) hne, hl, rfl⟩

theorem minds_listen (hw : b.net.Wired) (hl : l < b.net.listeners) (server : Handle)
    (network address : String) (funnel : Option FunnelMode) :
    Minds l b (b.listen server network address funnel).2 := by
  have hask : ∀ n, Minds l b
      { b with net := (b.net.listen n network address funnel).2 } := fun n =>
    minds_net (Tailnet.tends_listen b.net l n network address funnel)
  rcases listen_worded b server network address funnel with
    ⟨e, he⟩ | ⟨s, -, ⟨f, -, he⟩ | ⟨k, hk, he⟩⟩ <;> rw [he]
  · exact .refl l b
  · exact (hask s.node).trans (minds_record _ l server _)
  · refine (hask s.node).trans (minds_addListener ?_ _ server)
    rcases Tailnet.listen_cases hw s.node network address funnel with
      ⟨f, hf, -⟩ | ⟨m, hm, ho⟩
    · cases hf.symm.trans hk
    · obtain rfl := Except.ok.inj (hm.symm.trans hk)
      exact ho.ne_of_lt hl

end Asking

section Streams

theorem minds_takeNext (b : Bridge Tailnet) (l : ListenerId) (place : Waiting) :
    Minds l b (b.takeNext place).2 := by
  let f := b.feed place.feed
  let receipt := f.channel.receive
  let net : Tailnet := { b.net with streams := b.net.streams.closeAll receipt.dropped }
  let b₁ : Bridge Tailnet :=
    ({ b with net } : Bridge Tailnet).setFeed place.feed { f with channel := receipt.channel }
  have hreceived : Minds l b b₁ := by
    refine minds_of (Tailnet.retains_closeAll b.net l receipt.dropped).tends rfl rfl fun k => ?_
    change (assign b.feed place.feed _ k).listener = _ ∧
      (assign b.feed place.feed _ k).pump = _
    rw [assign_apply]
    split
    · rw [‹k = place.feed›]
      exact ⟨rfl, rfl⟩
    · exact ⟨rfl, rfl⟩
  unfold Bridge.takeNext
  dsimp only
  split
  · exact hreceived.trans (minds_refuse b₁ l place.server _)
  · exact hreceived.trans (minds_conns b₁ l _)

theorem minds_keep (b : Bridge Tailnet) (l : ListenerId) (r : Reaction) : Minds l b (b.keep r) :=
  minds_of (.refl l b.net) rfl rfl fun _ => ⟨rfl, rfl⟩

theorem minds_letGo (b : Bridge Tailnet) (l : ListenerId) (k : FeedId) :
    Minds l b (b.letGo k) := by
  let b₁ : Bridge Tailnet := { b with waiters := assign b.waiters k (b.waiters k - 1) }
  refine minds_of (b₁.retains_sweep l k).tends rfl rfl fun m => ?_
  change (assign b.feed k _ m).listener = _ ∧ (assign b.feed k _ m).pump = _
  rw [assign_apply]
  split
  · rw [‹m = k›]
    exact ⟨rfl, rfl⟩
  · exact ⟨rfl, rfl⟩

theorem minds_takes (l : ListenerId) (ht : b.Takes b') : Minds l b b' := by
  induction ht with
  | nothing => exact .refl l b
  | next place _ ih => exact ih.trans (minds_takeNext _ l place)
  | letGo k _ ih => exact ih.trans (minds_letGo _ l k)

/-- No copy is made of a connection that waits at the listener. -/
theorem minds_connStream {conn : Handle}
    (hq : ∀ c, b.conns.find? conn = some c → c.descriptor ∉ (b.net.listener l).queued) :
    Minds l b (b.connStream conn).2 := by
  unfold Bridge.connStream
  split
  · exact .refl l b
  · rename_i c hc
    refine minds_net (Tailnet.retains_streams (b.net.streams.ebbs_copy _) fun d hd => ?_).tends
    rw [Streams.copy, Streams.own_setEnd, if_neg]
    rintro rfl
    exact hq c (HandleTable.get_ok_iff.mp hc) hd

theorem minds_takeConn (b : Bridge Tailnet) (l : ListenerId) (conn : Handle) :
    Minds l b (b.takeConn conn).2 := by
  unfold Bridge.takeConn
  split
  · exact .refl l b
  · exact minds_conns b l _

theorem minds_closeConn (b : Bridge Tailnet) (l : ListenerId) (conn : Handle) :
    Minds l b (b.closeConn conn).2 := by
  unfold Bridge.closeConn
  split
  · exact .refl l b
  · rename_i c conns _
    exact (minds_conns b l conns).trans
      (minds_net (Tailnet.retains_closeStream b.net l c.descriptor).tends)

end Streams

/-- The pump of another listener makes a step. -/
theorem minds_advance {k : FeedId} {f : Feed} {net : Tailnet} (hw : b.net.Wired)
    (hk : (b.feed k).listener ≠ l) (h : (b.feed k).Advance b.net f net) :
    Minds l b (({ b with net } : Bridge Tailnet).setFeed k f) where
  toQueues := (Feed.holds_advance h l).toQueues
  handles := fun _ _ he _ => he
  tends := fun _ => (Feed.retains_advance hw hk h).tends
  still := fun _ m hm hl => by
    change (assign b.feed k f m).listener = l at hl
    change _ ∧ _ ∧ (assign b.feed k f m).pump = _
    rw [assign_apply] at hl ⊢
    split at hl
    · exact absurd ((Feed.listener_advance h).symm.trans hl) hk
    · rename_i hne
      rw [if_neg hne]
      exact ⟨hm, hl, rfl⟩

section Closing

theorem minds_closeListener (h : Fits tables waiting log i b) (l : ListenerId) (k : Handle) :
    Minds l b (b.closeListener k).2 := by
  cases he : b.listeners.find? k with
  | none =>
    rw [Bridge.closeListener_none he]
    exact .refl l b
  | some e =>
    obtain ⟨-, hfeed⟩ := h.entries i k e (by rwa [assign_same])
    rw [assign_same] at hfeed
    have hfound : ∀ m, (b.closeListener k).2.listeners.find? m =
        if m = k then none else b.listeners.find? m := (b.closeListener_tables k).2
    have hhandles : Stays l (b.closeListener k).2.toTables b.toTables := by
      intro m a ha _
      rw [hfound] at ha
      split at ha
      · cases ha
      · exact ha
    have hgone : (b.closeListener k).2.listeners.find? k = none := by
      rw [hfound, if_pos rfl]
    have hcloses := Tailnet.retains_closeListener h.wired l e.listener
    rw [Bridge.closeListener_some he] at hgone hhandles ⊢
    let b₁ : Bridge Tailnet := { b with
      listeners := b.listeners.erase k, net := b.net.closeListener e.listener }
    have hqueues := hcloses.toQueues.trans (b₁.queues_endFeed l e.feed)
    -- the listener of a handle that goes is another's, if its handle stays
    have hother : Stays l b.toTables (b₁.endFeed e.feed).toTables → e.listener ≠ l := by
      intro hs hl
      cases hgone.symm.trans (hs k e he hl)
    refine ⟨hqueues, hhandles, fun hs => ?_, fun hs m hm hl => ?_⟩
    · have hw : b₁.net.Wired := (Tailnet.calm_closeListener h.wired e.listener).wired
      exact (hcloses.trans (Bridge.retains_endFeed hw (hfeed.trans_ne (hother hs)))).tends
    · rw [listener_endFeed] at hl
      refine ⟨hm, hl, congrArg Feed.pump (Bridge.feed_endFeed_ne b₁ ?_)⟩
      rintro rfl
      exact hother hs (hfeed.symm.trans hl)

theorem minds_closeListeners (h : Fits tables waiting log i b) (l : ListenerId)
    (ls : List Handle) : Minds l b (b.closeListeners ls) := by
  induction ls generalizing b with
  | nil => exact .refl l b
  | cons k ls ih =>
    exact (minds_closeListener h l k).trans (ih (fits_closeListener h k).1)

theorem minds_close (h : Fits tables waiting log i b) (l : ListenerId) (server : Handle) :
    Minds l b (b.close server).2 := by
  cases hs : b.servers.find? server with
  | none =>
    rw [Bridge.close_none hs]
    exact .refl l b
  | some s =>
    obtain ⟨hfits, hcloses⟩ := fits_without h server
    have hwithout : Minds l b (b.without server) :=
      (minds_servers b l (b.servers.erase server)).trans
        (minds_closeListeners (fits_eraseServer h server) l (b.listenersOf server))
    rw [Bridge.close_some hs]
    exact hwithout.trans (minds_net ((Tailnet.tends_close hfits.wired l s.node).trans
      (Tailnet.tends_releaseNode _ l s.node)))

/-- All handles of a bridge that is dropped go. -/
theorem minds_drop (h : Fits tables waiting log i b) (l : ListenerId) :
    Minds l b { net := b.drop } := by
  let b₁ := b.closeListeners b.listeners.handles
  have hcloses : Minds l b b₁ := minds_closeListeners h l b.listeners.handles
  have hends := Tailnet.retains_closeAll b₁.net l (b₁.conns.entries.map Conn.descriptor)
  have hdrops := hends.tends.trans
    (Tailnet.tends_releaseNodes _ l (b₁.servers.entries.map Server.node))
  refine ⟨hcloses.toQueues.trans hdrops.toQueues, nofun, fun hs => ?_, nofun⟩
  refine (hcloses.tends fun k e he hl => ?_).trans hdrops
  cases hs k e he hl

end Closing

/-- Whatever is done with a handle. -/
theorem minds_perform (h : Fits tables waiting log i b) (hl : l < b.net.listeners)
    (hq : ∀ k c, b.conns.find? k = some c → c.descriptor ∉ (b.net.listener l).queued) (v : Verb) :
    Minds l b (b.perform v).2 := by
  have hw : b.net.Wired := h.wired
  cases v with
  | close server => exact minds_close h l server
  | dial server network address => exact minds_dial hw l server network address
  | listen server network address funnel => exact minds_listen hw hl server network address funnel
  | accept k => exact minds_takes l (b.takes_accept k)
  | acceptNonblocking k => exact minds_takes l (Bridge.takes_acceptNonblocking .nothing k)
  | acceptReady k => exact minds_takes l (b.takes_acceptReady k)
  | closeListener k => exact minds_closeListener h l k
  | connStream conn => exact minds_connStream (hq conn)
  | takeConn conn => exact minds_takeConn b l conn
  | closeConn conn => exact minds_closeConn b l conn
  | _ => exact minds_asks hw l (b.asks_perform rfl)

end Traffic
end Handoff
