import Handoff.Proofs.Stream.Growing
import Handoff.Proofs.Traffic.Calls
import Handoff.Proofs.Traffic.Closing

/-!
Relations between tailnets that do not care what is done with connections and with listeners that
are there. All that is done by handle, apart from what a server's node is asked, stays within them.
-/

namespace Handoff

namespace Tailnet

/-- Whatever is done with connections, and with listeners that are there, stays within `R`. -/
structure Indifferent (R : Tailnet → Tailnet → Prop) : Prop where
  refl (t : Tailnet) : R t t
  trans {t u w : Tailnet} : R t u → R u w → R t w
  streams (t : Tailnet) (streams : Streams) : t.streams.Grows streams → R t { t with streams }
  backlog (t : Tailnet) (l : ListenerId) (backlog : List Arrival) :
    R t (t.setListener l { t.listener l with backlog })
  close (t : Tailnet) (l : ListenerId) : R t (t.closeListener l)
  release (t : Tailnet) (l : ListenerId) : R t (t.releaseListener l)

variable {R : Tailnet → Tailnet → Prop}

theorem Indifferent.foldl (hR : Indifferent R) {α : Type} {f : Tailnet → α → Tailnet}
    (h : ∀ t a, R t (f t a)) (t : Tailnet) (as : List α) : R t (as.foldl f t) := by
  induction as generalizing t with
  | nil => exact hR.refl t
  | cons a as ih => exact hR.trans (h t a) (ih (f t a))

theorem Indifferent.closeAll (hR : Indifferent R) (t : Tailnet) (ds : List Descriptor) :
    R t { t with streams := t.streams.closeAll ds } :=
  hR.streams t _ (t.streams.grows_closeAll ds)

theorem Indifferent.advance (hR : Indifferent R) {f f' : Feed} {t t' : Tailnet}
    (h : f.Advance t f' t') : R t t' := by
  cases h with
  | arrive => exact hR.backlog t _ _
  | discard | giveUp => exact hR.streams t _ (t.streams.grows_close _)
  | leave => exact hR.close t f.listener
  | _ => exact hR.refl t

end Tailnet

def Verb.Asks : Verb → Tailnet.NodeVerb → Prop
  | .start _, nv => nv = .start
  | .up _, nv => nv = .up
  | .close _, nv => nv = .close
  | .configure _ option, nv => nv = .configure option
  | .applyConfig _ config, nv => ∃ option ∈ config.options, nv = .configure option
  | .dial _ network address, nv => nv = .dial network address
  | .listen _ network address funnel, nv => nv = .listen network address funnel
  | .addresses .., nv => nv = .addresses
  | .certDomains .., nv => nv = .certDomains
  | .loopback .., nv => nv = .loopback
  | _, _ => False

namespace Bridge
open Tailnet (Indifferent NodeVerb)
variable {α : Type} {R : Tailnet → Tailnet → Prop} (hR : Indifferent R) {b b' : Bridge Tailnet}
include hR

theorem within_sweep (b : Bridge Tailnet) (k : FeedId) : R b.net (b.sweep k).net :=
  hR.closeAll b.net _

theorem within_endFeed (b : Bridge Tailnet) (k : FeedId) : R b.net (b.endFeed k).net := by
  let f : Feed := { b.feed k with channel := (b.feed k).channel.shutdown }
  have hrun : R b.net (f.run b.net).2 :=
    Feed.steps_keep (P := fun _ t => R b.net t)
      (fun _ _ _ _ hs ha => hR.trans hs (hR.advance ha)) _ (hR.refl _)
  have hreleased := hR.trans hrun (hR.release _ (f.run b.net).1.listener)
  exact hR.trans hreleased (within_sweep hR (b.stopFeed k) k)

theorem within_closeListener (b : Bridge Tailnet) (l : Handle) :
    R b.net (b.closeListener l).2.net := by
  cases he : b.listeners.find? l with
  | none =>
    rw [closeListener_none he]
    exact hR.refl _
  | some e =>
    let b₁ : Bridge Tailnet := { b with
      listeners := b.listeners.erase l, net := b.net.closeListener e.listener }
    have hclosed : R b.net b₁.net := hR.close b.net e.listener
    rw [closeListener_some he]
    exact hR.trans hclosed (within_endFeed hR b₁ e.feed)

theorem within_closeListeners (b : Bridge Tailnet) (ls : List Handle) :
    R b.net (b.closeListeners ls).net := by
  induction ls generalizing b with
  | nil => exact hR.refl _
  | cons l ls ih => exact hR.trans (within_closeListener hR b l) (ih _)

theorem within_drop (hrelease : ∀ t n, R t (t.releaseNode n)) (b : Bridge Tailnet) :
    R b.net b.drop := by
  have hclosed := within_closeListeners hR b b.listeners.handles
  exact hR.trans (hR.trans hclosed (hR.closeAll _ _)) (hR.foldl hrelease _ _)

omit hR in
theorem net_refuse (b : Bridge Tailnet) (server : Handle) (e : BridgeError) :
    (b.refuse (α := α) server e).2.net = b.net := by
  cases e <;> rfl

theorem within_takeNext (b : Bridge Tailnet) (place : Waiting) :
    R b.net (b.takeNext place).2.net := by
  have hdropped := hR.closeAll b.net (b.feed place.feed).channel.receive.dropped
  unfold takeNext
  dsimp only
  split
  · rw [net_refuse]
    exact hdropped
  · exact hdropped

theorem within_letGo (b : Bridge Tailnet) (k : FeedId) : R b.net (b.letGo k).net :=
  within_sweep hR { b with waiters := assign b.waiters k (b.waiters k - 1) } k

theorem within_takes (h : b.Takes b') : R b.net b'.net := by
  induction h with
  | nothing => exact hR.refl _
  | next place _ ih => exact hR.trans ih (within_takeNext hR _ place)
  | letGo k _ ih => exact hR.trans ih (within_letGo hR _ k)

theorem within_connStream (b : Bridge Tailnet) (conn : Handle) :
    R b.net (b.connStream conn).2.net := by
  unfold connStream
  split
  · exact hR.refl _
  · exact hR.streams _ _ (Streams.grows_copy _ _)

theorem within_takeConn (b : Bridge Tailnet) (conn : Handle) :
    R b.net (b.takeConn conn).2.net := by
  unfold takeConn
  split <;> exact hR.refl _

theorem within_closeConn (b : Bridge Tailnet) (conn : Handle) :
    R b.net (b.closeConn conn).2.net := by
  unfold closeConn
  split
  · exact hR.refl _
  · exact hR.streams _ _ (Streams.grows_close _ _)

theorem within_withNode (b : Bridge Tailnet) (server : Handle)
    (op : NodeId → Tailnet → Except Failure α × Tailnet) (nv : NodeVerb)
    (hop : ∀ n t, (op n t).2 = (Tailnet.ask t n nv).2)
    (hask : ∀ t n, R t (Tailnet.ask t n nv).2) : R b.net (b.withNode server op).2.net := by
  rcases Traffic.withNode_cases b server op with
    ⟨e, he⟩ | ⟨s, -, ⟨f, net, hs, he⟩ | ⟨a, net, hs, he⟩⟩
  · rw [he]
    exact hR.refl _
  · have hnode := hask b.net s.node
    rw [← hop, hs] at hnode
    rw [he]
    exact hnode
  · have hnode := hask b.net s.node
    rw [← hop, hs] at hnode
    rw [he]
    exact hnode

theorem within_configureAll (b : Bridge Tailnet) (server : Handle) (options : List NodeOption)
    (hask : ∀ option ∈ options, ∀ t n, R t (Tailnet.ask t n (.configure option)).2) :
    R b.net (b.configureAll server options).2.net := by
  induction options generalizing b with
  | nil => exact hR.refl _
  | cons option options ih =>
    have hone : R b.net (b.configure server option).2.net :=
      within_withNode hR b server _ (.configure option) (fun _ _ => rfl)
        (hask option (List.mem_cons_self ..))
    unfold configureAll
    revert hone
    generalize b.configure server option = r
    obtain ⟨r, b₁⟩ := r
    intro hone
    cases r with
    | error e => exact hone
    | ok => exact hR.trans hone (ih b₁ fun o ho => hask o (List.mem_cons_of_mem _ ho))

/-- Closing a server asks its node to end, and lets go of it. -/
theorem within_close (hask : ∀ t n, R t (Tailnet.ask t n .close).2)
    (hrelease : ∀ t n, R t (t.releaseNode n)) (b : Bridge Tailnet) (server : Handle) :
    R b.net (b.close server).2.net := by
  cases hs : b.servers.find? server with
  | none =>
    rw [close_none hs]
    exact hR.refl _
  | some s =>
    have hwithout : R b.net (b.without server).net :=
      within_closeListeners hR { b with servers := b.servers.erase server } _
    rw [close_some hs]
    exact hR.trans (hR.trans hwithout (hask _ s.node)) (hrelease _ s.node)

omit hR in
theorem net_loopback (b : Bridge Tailnet) (server : Handle) (capacity : Nat) :
    (b.loopback server capacity).2.net = (b.withNode server Network.loopback).2.net := by
  unfold loopback
  generalize b.withNode server Network.loopback = r
  obtain ⟨r, b₁⟩ := r
  cases r with
  | error e => rfl
  | ok info =>
    dsimp only
    split
    · rfl
    · split
      · exact net_refuse b₁ server _
      · rfl

omit hR in
theorem net_listen (b : Bridge Tailnet) (server : Handle) (network address : String)
    (funnel : Option FunnelMode) : (b.listen server network address funnel).2.net =
      (b.withNode server fun n => Network.listen n network address funnel).2.net := by
  unfold listen
  generalize (b.withNode server fun n => Network.listen n network address funnel) = r
  obtain ⟨r, b₁⟩ := r
  cases r <;> rfl

omit hR in
theorem net_dial (b : Bridge Tailnet) (server : Handle) (network address : String) :
    (b.dial server network address).2.net =
      (b.withNode server fun n => Network.dial n network address).2.net := by
  unfold dial
  generalize (b.withNode server fun n => Network.dial n network address) = r
  obtain ⟨r, b₁⟩ := r
  cases r <;> rfl

omit hR in
theorem net_remoteAddress (b : Bridge Tailnet) (listener conn : Handle) (capacity : Nat) :
    (b.remoteAddress listener conn capacity).2.net = b.net := by
  unfold remoteAddress
  split
  · rfl
  · split
    · rfl
    · split
      · exact net_refuse ..
      · split
        · rename_i f net hr
          exact (congrArg Prod.snd hr).symm
        · rename_i endpoint net hr
          exact (congrArg Prod.snd hr).symm

/-- What is asked of nodes is all that can lead out of `R`. -/
theorem within_perform (b : Bridge Tailnet) (v : Verb)
    (hask : ∀ nv, v.Asks nv → ∀ t n, R t (Tailnet.ask t n nv).2)
    (hrelease : ∀ t n, R t (t.releaseNode n)) : R b.net (b.perform v).2.net := by
  cases v with
  | start server =>
    exact within_withNode hR b server Network.start .start (fun _ _ => rfl) (hask _ rfl)
  | up server =>
    exact within_withNode hR b server Network.up .up (fun _ _ => rfl) (hask _ rfl)
  | close server => exact within_close hR (hask _ rfl) hrelease b server
  | configure server option =>
    exact within_withNode hR b server _ (.configure option) (fun _ _ => rfl) (hask _ rfl)
  | applyConfig server config =>
    exact within_configureAll hR b server _ fun option ho => hask _ ⟨option, ho, rfl⟩
  | dial server network address =>
    change R b.net (b.dial server network address).2.net
    rw [net_dial]
    exact within_withNode hR b server _ (.dial network address) (fun _ _ => rfl) (hask _ rfl)
  | listen server network address funnel =>
    change R b.net (b.listen server network address funnel).2.net
    rw [net_listen]
    exact within_withNode hR b server _ (.listen network address funnel) (fun _ _ => rfl)
      (hask _ rfl)
  | addresses server _ =>
    exact within_withNode hR b server Network.addresses .addresses (fun _ _ => rfl) (hask _ rfl)
  | certDomains server _ =>
    exact within_withNode hR b server Network.certDomains .certDomains (fun _ _ => rfl)
      (hask _ rfl)
  | loopback server capacity =>
    change R b.net (b.loopback server capacity).2.net
    rw [net_loopback]
    exact within_withNode hR b server Network.loopback .loopback (fun _ _ => rfl) (hask _ rfl)
  | lastError _ _ => exact hR.refl _
  | accept l => exact within_takes hR (b.takes_accept l)
  | acceptNonblocking l => exact within_takes hR (takes_acceptNonblocking .nothing l)
  | acceptReady l => exact within_takes hR (b.takes_acceptReady l)
  | listenerReadable _ => exact hR.refl _
  | closeListener l => exact within_closeListener hR b l
  | remoteAddress l conn capacity =>
    change R b.net (b.remoteAddress l conn capacity).2.net
    rw [net_remoteAddress]
    exact hR.refl _
  | connStream conn => exact within_connStream hR b conn
  | takeConn conn => exact within_takeConn hR b conn
  | closeConn conn => exact within_closeConn hR b conn

end Bridge
end Handoff
