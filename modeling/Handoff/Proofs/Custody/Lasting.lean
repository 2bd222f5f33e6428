import Handoff.Proofs.Traffic.Accepting
import Handoff.Proofs.Traffic.Calls

namespace Handoff

namespace Tailnet
variable {t t' t'' : Tailnet} {n m : NodeId}

structure Lasts (t t' : Tailnet) : Prop where
  lists : ∀ n, (t'.node n).listeners ⊆ (t.node n).listeners
  phase : ∀ n, (t'.node n).phase = .closed → (t.node n).phase = .closed
  nodes : t.nodes ≤ t'.nodes

theorem Lasts.refl (t : Tailnet) : Lasts t t :=
  ⟨fun _ => List.Subset.refl _, fun _ h => h, Nat.le_refl _⟩

theorem Lasts.trans (h : Lasts t t') (h' : Lasts t' t'') : Lasts t t'' where
  lists := fun n => List.Subset.trans (h'.lists n) (h.lists n)
  phase := fun n hn => h.phase n (h'.phase n hn)
  nodes := Nat.le_trans h.nodes h'.nodes

theorem Lasts.of_node (h : t'.node = t.node) (hn : t.nodes ≤ t'.nodes) : Lasts t t' where
  lists := fun n => by
    rw [h]
    exact List.Subset.refl _
  phase := fun n hc => by rwa [h] at hc
  nodes := hn

/-- No verb but one ends a node. -/
theorem phase_ask {v : NodeVerb} (hv : v ≠ .close)
    (h : ((t.ask n v).2.node m).phase = .closed) : (t.node m).phase = .closed := by
  by_cases hm : m = n
  · subst m
    have hturn := turn_ask t n v
    revert hturn h
    generalize t.ask n v = r
    intro h hturn
    cases hturn with
    | set option hf =>
      rw [node_setNode, if_pos rfl, (sets_configure option _).phase] at h
      exact h
    | refused => exact h
    | told => exact h
    | ran v r t' hp hw =>
      obtain ⟨_, _, _, hnode⟩ := hw.own
      have hruns := runs_start (passes_iff.mp hp).2
      rw [hnode] at h
      exact absurd (hruns.symm.trans h) nofun
    | ended => exact absurd rfl hv
  · rwa [node_ask_ne hm] at h

theorem Kept.lasts {v : NodeVerb} (h : Kept t (t.ask n v).2) (hv : v ≠ .close) :
    Lasts t (t.ask n v).2 :=
  ⟨h.lists, fun _ => phase_ask hv, h.nodes⟩

theorem lasts_ask (hw : Wired t) {v : NodeVerb} (hv : v.isQuiet = true) (n : NodeId) :
    Lasts t (t.ask n v).2 :=
  (calm_ask hw hv n).toKept.lasts fun he => by
    rw [he] at hv
    cases hv

theorem lasts_dial (hw : Wired t) (n : NodeId) (network address : String) :
    Lasts t (t.dial n network address).2 := by
  have hkept : Kept t (t.dial n network address).2 := by
    rcases dial_cases hw n network address with ⟨f, -, hc⟩ | ⟨target, l, id, -, -, ha⟩
    · exact hc.toKept
    · exact ha.toMoves.toKept
  exact hkept.lasts (v := .dial network address) nofun

theorem nodes_releaseNode (t : Tailnet) (n : NodeId) : (t.releaseNode n).nodes = t.nodes := by
  have hlisteners : ∀ (ls : List ListenerId) (t : Tailnet),
      (ls.foldl releaseListener t).nodes = t.nodes := by
    intro ls
    induction ls with
    | nil => exact fun _ => rfl
    | cons l ls ih =>
      intro t
      refine (ih _).trans ?_
      unfold releaseListener
      dsimp only
      split <;> rfl
  exact hlisteners _ _

/-- A node that is let go of has not ended. -/
theorem lasts_releaseNode (t : Tailnet) (n : NodeId) : Lasts t (t.releaseNode n) where
  lists := fun m => by
    rw [node_releaseNode]
    split
    · exact List.nil_subset _
    · exact List.Subset.refl _
  phase := fun m hc => by
    rw [node_releaseNode] at hc
    split at hc
    · rwa [‹m = n›]
    · exact hc
  nodes := Nat.le_of_eq (nodes_releaseNode t n).symm

theorem lasts_releaseNodes (t : Tailnet) (ns : List NodeId) :
    Lasts t (ns.foldl (fun t n => t.releaseNode n) t) := by
  induction ns generalizing t with
  | nil => exact .refl t
  | cons n ns ih => exact (lasts_releaseNode t n).trans (ih _)

end Tailnet

def Verb.isMild : Verb → Bool
  | .close _ | .listen .. | .closeListener _ => false
  | _ => true

namespace Custody
open Traffic
variable {net : Tailnet} {b b' b'' : Bridge Tailnet} {α : Type}

structure Mild (b b' : Bridge Tailnet) : Prop where
  lasts : b.net.Lasts b'.net
  tidy : b.servers.Tidy → b'.servers.Tidy
  shaped : Shaped b.toTables b'.toTables

theorem Mild.refl (b : Bridge Tailnet) : Mild b b :=
  ⟨.refl _, id, (Alike.refl _).toShaped⟩

theorem Mild.trans (h : Mild b b') (h' : Mild b' b'') : Mild b b'' :=
  ⟨h.lasts.trans h'.lasts, h'.tidy ∘ h.tidy, h.shaped.trans h'.shaped⟩

theorem mild_net (h : b.net.Lasts net) : Mild b { b with net } :=
  ⟨h, id, (Alike.refl _).toShaped⟩

theorem mild_record (b : Bridge Tailnet) (server : Handle) (text : String) :
    Mild b (b.record server text) :=
  ⟨.refl _, fun ht => ht.modify server fun s => { s with record := ⟨text⟩ },
    (alike_record b server text).toShaped⟩

theorem mild_refuse (b : Bridge Tailnet) (server : Handle) (e : BridgeError) :
    Mild b (b.refuse (α := α) server e).2 := by
  unfold Bridge.refuse
  split
  · exact mild_record b server _
  · exact mild_record b server _
  · exact .refl b

theorem mild_withNode (server : Handle) (op : NodeId → Tailnet → Except Failure α × Tailnet)
    (hop : ∀ n, b.net.Lasts (op n b.net).2) : Mild b (b.withNode server op).2 := by
  rcases withNode_cases b server op with ⟨e, he⟩ | ⟨s, -, ⟨f, net, hs, he⟩ | ⟨a, net, hs, he⟩⟩
  · rw [he]
    exact .refl b
  · have hn := hop s.node
    rw [hs] at hn
    rw [he]
    exact (mild_net hn).trans (mild_record _ server f.message)
  · have hn := hop s.node
    rw [hs] at hn
    rw [he]
    exact mild_net hn

/-- Connections come and go. -/
theorem mild_conns (b : Bridge Tailnet) (conns : HandleTable Conn) (streams : Streams) :
    Mild b { b with conns, net := { b.net with streams } } :=
  ⟨.of_node rfl (Nat.le_refl _), id, (alike_setConns b.toTables conns).toShaped⟩

theorem mild_dial (hw : b.net.Wired) (server : Handle) (network address : String) :
    Mild b (b.dial server network address).2 := by
  have hnode := mild_withNode (b := b) server (fun n => Network.dial n network address)
    fun n => Tailnet.lasts_dial hw n network address
  unfold Bridge.dial
  revert hnode
  generalize (b.withNode server fun n => Network.dial n network address) = r
  obtain ⟨r, b₁⟩ := r
  intro hnode
  cases r with
  | error e => exact hnode
  | ok d => exact hnode.trans (mild_conns b₁ _ b₁.net.streams)

theorem mild_takeNext (b : Bridge Tailnet) (place : Waiting) : Mild b (b.takeNext place).2 := by
  let receipt := (b.feed place.feed).channel.receive
  let b₁ : Bridge Tailnet := ({ b with net := { b.net with
    streams := b.net.streams.closeAll receipt.dropped } } : Bridge Tailnet).setFeed place.feed
      { b.feed place.feed with channel := receipt.channel }
  have hreceived : Mild b b₁ :=
    ⟨.of_node rfl (Nat.le_refl _), id, (alikeBut_setFeed b.toTables place.feed
      { b.feed place.feed with channel := receipt.channel } rfl).toShaped⟩
  unfold Bridge.takeNext
  dsimp only
  split
  · exact hreceived.trans (mild_refuse b₁ place.server _)
  · exact hreceived.trans (mild_conns b₁ _ b₁.net.streams)

theorem mild_keep (b : Bridge Tailnet) (r : Reaction) : Mild b (b.keep r) :=
  ⟨.refl _, id, fun _ => rfl, rfl, rfl, fun _ => rfl⟩

theorem mild_letGo (b : Bridge Tailnet) (k : FeedId) : Mild b (b.letGo k) :=
  ⟨.of_node rfl (Nat.le_refl _), id, fun _ => rfl, rfl, rfl, fun m => listener_sweep _ k m⟩

theorem mild_takes (ht : b.Takes b') : Mild b b' := by
  induction ht with
  | nothing => exact .refl b
  | next place _ ih => exact ih.trans (mild_takeNext _ place)
  | letGo k _ ih => exact ih.trans (mild_letGo _ k)

theorem mild_asks (hw : b.net.Wired) (ha : b.Asks b') : Mild b b' := by
  induction ha with
  | nothing => exact .refl b
  | asked n v hv ha ih =>
    exact ih.trans (mild_net (Tailnet.lasts_ask (quiet_asks hw ha).calm.wired hv n))
  | noted server text _ ih => exact ih.trans (mild_record _ server text)

theorem mild_connStream (b : Bridge Tailnet) (conn : Handle) : Mild b (b.connStream conn).2 := by
  unfold Bridge.connStream
  split
  · exact .refl b
  · exact mild_conns b b.conns _

theorem mild_takeConn (b : Bridge Tailnet) (conn : Handle) : Mild b (b.takeConn conn).2 := by
  unfold Bridge.takeConn
  split
  · exact .refl b
  · exact mild_conns b _ b.net.streams

theorem mild_closeConn (b : Bridge Tailnet) (conn : Handle) : Mild b (b.closeConn conn).2 := by
  unfold Bridge.closeConn
  split
  · exact .refl b
  · exact mild_conns b _ _

theorem mild_perform (hw : b.net.Wired) {v : Verb} (hv : v.isMild = true) :
    Mild b (b.perform v).2 := by
  cases v with
  | dial server network address => exact mild_dial hw server network address
  | accept l => exact mild_takes (b.takes_accept l)
  | acceptNonblocking l => exact mild_takes (Bridge.takes_acceptNonblocking .nothing l)
  | acceptReady l => exact mild_takes (b.takes_acceptReady l)
  | connStream conn => exact mild_connStream b conn
  | takeConn conn => exact mild_takeConn b conn
  | closeConn conn => exact mild_closeConn b conn
  | close _ => cases hv
  | listen _ _ _ _ => cases hv
  | closeListener _ => cases hv
  | _ => exact mild_asks hw (b.asks_perform rfl)

end Custody
end Handoff
