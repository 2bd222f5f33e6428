import Handoff.Proofs.Custody.Closure
import Handoff.Proofs.Custody.Registering
import Handoff.Proofs.Tailnet.Fates

namespace Handoff

def Verb.Configures (v : Verb) (server : Handle) : Prop :=
  (∃ option, v = .configure server option) ∨ ∃ config, v = .applyConfig server config

namespace Bridge
open Tailnet (Fate Meets NodeVerb)
variable {α : Type} {b b' : Bridge Tailnet} {n : NodeId} {v : Verb}

/-- What an operation can do to the node `n`, unless it closes a server: it asks it for something
if a handle stands for it. -/
def Asking (b : Bridge Tailnet) (v : Verb) (n : NodeId) (e : Fate) : Prop :=
  ∃ nv server s, e = .asked nv ∧ nv ≠ .close ∧ b.servers.find? server = some s ∧ s.node = n ∧
    ((∃ option, nv = .configure option) → v.Configures server)

theorem node_takeNext (b : Bridge Tailnet) (place : Waiting) :
    (b.takeNext place).2.net.node = b.net.node := by
  unfold takeNext
  dsimp only
  split
  · rw [net_refuse]
    rfl
  · rfl

theorem node_takes (h : b.Takes b') : b'.net.node = b.net.node := by
  induction h with
  | nothing => rfl
  | next place _ ih => rw [node_takeNext, ih]
  | letGo _ _ ih => exact ih

/-- An operation that asks a server's node for one thing. -/
theorem meets_withNode (server : Handle) (op : NodeId → Tailnet → Except Failure α × Tailnet)
    (nv : NodeVerb) (hop : ∀ n t, (op n t).2 = (Tailnet.ask t n nv).2) (hnv : nv ≠ .close)
    (hset : (∃ option, nv = .configure option) → v.Configures server) :
    Meets (b.Asking v n) n b.net (b.withNode server op).2.net := by
  have hask : ∀ s, b.servers.find? server = some s →
      Meets (b.Asking v n) n b.net (op s.node b.net).2 := by
    intro s hs
    rw [hop]
    exact Tailnet.meets_meet (.asked nv) fun hn => ⟨nv, server, s, rfl, hnv, hs, hn, hset⟩
  rcases Traffic.withNode_cases b server op with
    ⟨e, he⟩ | ⟨s, hs, ⟨f, net, hr, he⟩ | ⟨a, net, hr, he⟩⟩ <;> rw [he]
  · exact .nothing rfl
  · have hmeets := hask s hs
    rwa [hr] at hmeets
  · have hmeets := hask s hs
    rwa [hr] at hmeets

/-- Settings that are made one after the other are all the same server's. -/
theorem meets_configureAll (b : Bridge Tailnet) (server : Handle) (options : List NodeOption)
    (hv : v.Configures server) :
    Meets (b.Asking v n) n b.net (b.configureAll server options).2.net := by
  induction options generalizing b with
  | nil => exact .nothing rfl
  | cons option options ih =>
    have hone := b.meets_withNode (v := v) (n := n) server (fun n => Network.configure n option)
      (.configure option) (fun _ _ => rfl) nofun fun _ => hv
    have hservers : ∀ b₁, b.configure server option = (.ok (), b₁) → b₁.servers = b.servers := by
      intro b₁ h
      rcases Traffic.withNode_cases b server fun n => Network.configure n option with
        ⟨e, he⟩ | ⟨s, -, ⟨f, net, -, he⟩ | ⟨a, net, -, he⟩⟩
      · cases he.symm.trans h
      · cases he.symm.trans h
      · cases he.symm.trans h
        rfl
    change Meets _ n b.net (b.configure server option).2.net at hone
    unfold configureAll
    revert hone hservers
    generalize b.configure server option = r
    obtain ⟨r, b₁⟩ := r
    intro hservers hone
    cases r with
    | error e => exact hone
    | ok =>
      have hrest := ih b₁
      unfold Asking at hrest
      rw [hservers b₁ rfl] at hrest
      exact hone.trans hrest

/-- Whatever is done with a handle asks the nodes of servers at most, unless it closes one. -/
theorem meets_perform (b : Bridge Tailnet) (v : Verb) (hv : ∀ server, v ≠ .close server)
    (n : NodeId) : Meets (b.Asking v n) n b.net (b.perform v).2.net := by
  have hsame : (b.perform v).2.net.node = b.net.node →
      Meets (b.Asking v n) n b.net (b.perform v).2.net := fun h => .nothing (congrFun h n)
  cases v with
  | start server =>
    exact b.meets_withNode server Network.start .start (fun _ _ => rfl) nofun nofun
  | up server =>
    exact b.meets_withNode server Network.up .up (fun _ _ => rfl) nofun nofun
  | close server => exact absurd rfl (hv server)
  | configure server option =>
    exact b.meets_withNode server (fun n => Network.configure n option)
      (.configure option) (fun _ _ => rfl) nofun fun _ => .inl ⟨option, rfl⟩
  | applyConfig server config =>
    exact b.meets_configureAll server config.options (.inr ⟨config, rfl⟩)
  | dial server network address =>
    change Meets _ n b.net (b.dial server network address).2.net
    rw [net_dial]
    exact b.meets_withNode server _ (.dial network address) (fun _ _ => rfl) nofun nofun
  | listen server network address funnel =>
    change Meets _ n b.net (b.listen server network address funnel).2.net
    rw [net_listen]
    exact b.meets_withNode server _ (.listen network address funnel) (fun _ _ => rfl) nofun
      nofun
  | addresses server _ =>
    exact b.meets_withNode server Network.addresses .addresses (fun _ _ => rfl) nofun nofun
  | certDomains server _ =>
    exact b.meets_withNode server Network.certDomains .certDomains (fun _ _ => rfl) nofun
      nofun
  | loopback server capacity =>
    change Meets _ n b.net (b.loopback server capacity).2.net
    rw [net_loopback]
    exact b.meets_withNode server Network.loopback .loopback (fun _ _ => rfl) nofun nofun
  | lastError _ _ => exact hsame rfl
  | accept l => exact hsame (node_takes (b.takes_accept l))
  | acceptNonblocking l => exact hsame (node_takes (takes_acceptNonblocking .nothing l))
  | acceptReady l => exact hsame (node_takes (b.takes_acceptReady l))
  | listenerReadable _ => exact hsame rfl
  | closeListener l => exact hsame (Traffic.node_closeListener b l)
  | remoteAddress l conn capacity =>
    exact hsame (congrArg Tailnet.node (b.net_remoteAddress l conn capacity))
  | connStream conn =>
    apply hsame
    change (b.connStream conn).2.net.node = _
    unfold connStream
    split <;> rfl
  | takeConn conn =>
    apply hsame
    change (b.takeConn conn).2.net.node = _
    unfold takeConn
    split <;> rfl
  | closeConn conn =>
    apply hsame
    change (b.closeConn conn).2.net.node = _
    unfold closeConn
    split <;> rfl

/-- Settings are made by what is there to make them. -/
theorem settings_perform (b : Bridge Tailnet) (hclose : ∀ server, v ≠ .close server)
    (hset : ∀ server, ¬ v.Configures server) (n : NodeId) :
    ((b.perform v).2.net.node n).settings = (b.net.node n).settings := by
  refine (b.meets_perform v hclose n).settings fun _ option => ?_
  rintro ⟨nv, server, s, he, -, -, -, hsets⟩
  exact hset server (hsets ⟨option, (Fate.asked.inj he).symm⟩)

theorem meets_releaseNodes (t : Tailnet) (ns : List NodeId) :
    Meets (fun e => e = .released ∧ n ∈ ns) n t (ns.foldl (fun t n => t.releaseNode n) t) := by
  induction ns generalizing t with
  | nil => exact .nothing rfl
  | cons m ns ih =>
    have hone : Meets (fun e => e = .released ∧ n ∈ m :: ns) n t (t.releaseNode m) :=
      Tailnet.meets_meet .released fun hm => ⟨rfl, hm ▸ List.mem_cons_self ..⟩
    exact hone.trans ((ih _).mono fun e he => ⟨he.1, List.mem_cons_of_mem _ he.2⟩)

/-- A bridge that ends lets go of its servers' nodes. -/
theorem meets_drop (b : Bridge Tailnet) (n : NodeId) :
    Meets (fun e => e = .released ∧ ∃ k s, b.servers.find? k = some s ∧ s.node = n) n b.net
      b.drop := by
  let b₁ := b.closeListeners b.listeners.handles
  have hservers : b₁.servers = b.servers := b.closeListeners_tables _ |>.1
  have hclosed : b₁.net.node = b.net.node := Traffic.node_closeListeners b _
  have hreleased := meets_releaseNodes (n := n)
    { b₁.net with streams := b₁.net.streams.closeAll (b₁.conns.entries.map Conn.descriptor) }
    (b₁.servers.entries.map Server.node)
  have hstart : Meets (fun e => e = .released ∧ ∃ k s, b.servers.find? k = some s ∧ s.node = n) n
      b.net { b₁.net with
        streams := b₁.net.streams.closeAll (b₁.conns.entries.map Conn.descriptor) } :=
    .nothing (congrFun hclosed n)
  refine hstart.trans (hreleased.mono ?_)
  rintro e ⟨he, hn⟩
  obtain ⟨s, hs, rfl⟩ := List.mem_map.mp hn
  obtain ⟨⟨k, s⟩, hk, rfl⟩ := List.mem_map.mp hs
  refine ⟨he, ⟨k⟩, s, ?_, rfl⟩
  rw [← hservers]
  exact HandleTable.mem_live_iff.mp hk

/-- An operation gives no handle another node. -/
theorem nodes_perform (hw : b.net.Wired) {server : Handle}
    (h : ((b.perform v).2.servers.find? server).map Server.node = some n) :
    (b.servers.find? server).map Server.node = some n := by
  by_cases hv : v.isMild = true
  · rwa [(Custody.mild_perform hw hv).shaped.nodes] at h
  cases v with
  | close k =>
    cases hs : b.servers.find? k with
    | none =>
      rwa [show (b.perform (.close k)).2 = b from congrArg Prod.snd (close_none hs)] at h
    | some s =>
      have hfind := Custody.find?_close hs server
      change ((b.close k).2.servers.find? server).map Server.node = some n at h
      rw [hfind] at h
      split at h
      · cases h
      · exact h
  | closeListener l =>
    change ((b.closeListener l).2.servers.find? server).map Server.node = some n at h
    rwa [(b.closeListener_tables l).1] at h
  | listen k network address funnel =>
    change ((b.listen k network address funnel).2.servers.find? server).map Server.node = _ at h
    rcases Traffic.listen_worded b k network address funnel with
      ⟨e, he⟩ | ⟨s, -, ⟨f, -, he⟩ | ⟨l, -, he⟩⟩ <;> rw [he] at h
    · exact h
    · exact (Traffic.alike_record _ k f.toFailure.message).nodes server ▸ h
    · exact h
  | _ => exact absurd rfl hv

end Bridge

namespace Custody
open Tailnet (Fate Meets)
variable {c c' c'' : Custody} {i : Nat} {h : Handle} {n : NodeId}

def Stands (c : Custody) (i : Nat) (h : Handle) (n : NodeId) : Prop :=
  ((c.tables i).servers.find? h).map Server.node = some n

theorem Stands.server (hs : Stands c i h n) :
    ∃ a, (c.tables i).servers.find? h = some a ∧ a.node = n :=
  Option.map_eq_some_iff.mp hs

theorem stands_of_server {a : Server} (ha : (c.tables i).servers.find? h = some a) :
    Stands c i h a.node := by
  rw [Stands, ha]
  rfl

def Configures (i : Nat) (h : Handle) (c c' : Custody) : Prop :=
  ∃ v : Verb, v.Configures h ∧ c' = c.perform i v

structure Befalls (c c' : Custody) (n : NodeId) (e : Fate) : Prop where
  made : n < c.net.nodes
  /-- No handle stands for a node that ends or is let go of. -/
  ends : e = .asked .close ∨ e = .released → ∀ i h, ¬ Stands c' i h n
  sets : ∀ option, e = .asked (.configure option) → ∀ i h, Stands c i h n → Configures i h c c'

theorem nodes_ask {t : Tailnet} (hw : t.Wired) (n : NodeId) (nv : Tailnet.NodeVerb) :
    t.nodes ≤ (t.ask n nv).2.nodes := by
  cases nv with
  | dial network address => exact (Tailnet.lasts_dial hw n network address).nodes
  | listen network address funnel =>
    rcases Tailnet.listen_cases hw n network address funnel with ⟨_, -, hc, -⟩ | ⟨l, -, ho⟩
    · exact hc.nodes
    · exact ho.nodes
  | close => exact (Tailnet.calm_close hw n).nodes
  | _ => exact (Tailnet.calm_ask hw rfl n).nodes

section Moving
variable (hr : Reachable c)
include hr

theorem Stands.unique {j : Nat} {k : Handle} (hs : Stands c i h n) (hk : Stands c j k n) :
    i = j ∧ h = k := by
  obtain ⟨a, ha, rfl⟩ := hs.server
  obtain ⟨b, hb, hn⟩ := hk.server
  exact hr.intact.apart i j h k a b ha hb hn.symm

theorem Stands.made (hs : Stands c i h n) : n < c.net.nodes := by
  obtain ⟨a, ha, rfl⟩ := hs.server
  exact hr.intact.nodes i h a ha

/-- A server that is closed is asked to end, and its node is let go of. -/
theorem meets_close (i : Nat) (h : Handle) (n : NodeId) :
    Meets (Befalls c (c.perform i (.close h)) n) n c.net (c.perform i (.close h)).net := by
  change Meets _ n c.net ((c.bridge i).close h).2.net
  cases hs : (c.bridge i).servers.find? h with
  | none =>
    rw [Bridge.close_none hs]
    exact .nothing rfl
  | some s =>
    have hbefalls : ∀ e, e = .asked .close ∨ e = .released → s.node = n →
        Befalls c (c.perform i (.close h)) n e := by
      rintro e he rfl
      refine ⟨hr.intact.nodes i h s hs, fun _ j k hk => ?_, fun option ho => ?_⟩
      · obtain ⟨a, ha, hn⟩ := hk.server
        exact alone_close hr hs ha hn
      · rcases he with rfl | rfl <;> cases ho
    rw [Bridge.close_some hs]
    have hwithout : Meets (Befalls c (c.perform i (.close h)) n) n c.net
        ((c.bridge i).without h).net :=
      .nothing (congrFun (Traffic.node_without (c.bridge i) h) n)
    exact (hwithout.trans (Tailnet.meets_meet (.asked .close) (hbefalls _ (.inl rfl)))).trans
      (Tailnet.meets_meet .released (hbefalls _ (.inr rfl)))

theorem meets_perform (i : Nat) (v : Verb) (n : NodeId) :
    Meets (Befalls c (c.perform i v) n) n c.net (c.perform i v).net := by
  by_cases hv : ∃ server, v = .close server
  · obtain ⟨server, rfl⟩ := hv
    exact meets_close hr i server n
  · refine ((c.bridge i).meets_perform v (fun server he => hv ⟨server, he⟩) n).mono ?_
    rintro _ ⟨nv, k, s, rfl, hopen, hk, rfl, hsets⟩
    refine ⟨hr.intact.nodes i k s hk, ?_, fun option ho j h hs => ?_⟩
    · rintro (he | he)
      · exact absurd (Fate.asked.inj he) hopen
      · cases he
    · obtain ⟨rfl, rfl⟩ := hs.unique hr (stands_of_server hk)
      exact ⟨v, hsets ⟨option, Fate.asked.inj ho⟩, rfl⟩

theorem meets_dropBridge (i : Nat) (n : NodeId) :
    Meets (Befalls c { c with toFleet := c.toFleet.dropBridge i } n) n c.net
      (c.toFleet.dropBridge i).net := by
  refine ((c.bridge i).meets_drop n).mono ?_
  rintro _ ⟨rfl, k, s, hk, rfl⟩
  refine ⟨hr.intact.nodes i k s hk, fun _ j h hs => ?_, nofun⟩
  obtain ⟨a, ha, hn⟩ := hs.server
  change (assign c.tables i {} j).servers.find? h = some a at ha
  rw [assign_apply] at ha
  split at ha
  · cases ha
  · rename_i hj
    exact hj (hr.intact.apart j i h k a s ha hk hn).1

omit hr in
/-- A node without a bridge is nobody's. -/
theorem meets_use {m : NodeId} (hm : m < c.net.nodes) (hloose : c.Loose m) (u : NodeUse)
    (n : NodeId) : Meets (Befalls c (c.use m u) n) n c.net (c.use m u).net := by
  have hnone : ∀ i h, ¬ Stands c i h m := by
    intro i h hs
    obtain ⟨a, ha, hn⟩ := hs.server
    exact hloose i h a ha hn
  have hafter : ∀ i h, ¬ Stands (c.use m u) i h m := by
    intro i h hs
    rw [Stands, tables_use] at hs
    exact hnone i h hs
  have hask : ∀ nv, Meets (Befalls c (c.use m u) n) n c.net (c.net.ask m nv).2 := by
    refine fun nv => Tailnet.meets_meet (.asked nv) ?_
    rintro rfl
    exact ⟨hm, fun _ => hafter, fun _ _ i h hs => absurd hs (hnone i h)⟩
  rw [net_use]
  cases u with
  | configure option => exact hask (.configure option)
  | start => exact hask .start
  | up => exact hask .up
  | loopback => exact hask .loopback
  | close => exact hask .close
  | listen network address funnel => exact hask (.listen network address funnel)
  | dial network address => exact hask (.dial network address)

/-- All that a move does to a node. -/
theorem meets_move (hm : Move c c') (n : NodeId) : Meets (Befalls c c' n) n c.net c'.net := by
  cases hm with
  | newServer i _ => exact .nothing rfl
  | perform i v _ => exact meets_perform hr i v n
  | resume w _ =>
    rw [net_resume]
    exact .nothing (congrFun (Bridge.node_takes (takes_resumed c w)) n)
  | pump i k _ =>
    unfold Traffic.pump
    dsimp only
    split
    · rename_i f net hs
      exact .nothing (congrFun (Feed.node_advance (Feed.advance_of_step hs)) n)
    · exact .nothing rfl
  | dropBridge i _ => exact meets_dropBridge hr i n
  | newNode => exact .nothing rfl
  | use m u hm hloose => exact meets_use hm hloose u n
  | closeListener l => exact .nothing (congrFun (Tailnet.node_closeListener ..) n)
  | useFiles files => exact .nothing rfl
  | useStream d u _ => exact .nothing rfl
  | release d _ => exact .nothing rfl

theorem nodes_perform (i : Nat) (v : Verb) : c.net.nodes ≤ (c.perform i v).net.nodes := by
  have hw : c.net.Wired := hr.intact.wired
  have hfits := Traffic.fits_bridge hr.intact i
  change c.net.nodes ≤ ((c.bridge i).perform v).2.net.nodes
  by_cases hv : v.isMild = true
  · exact (mild_perform (b := c.bridge i) hw hv).lasts.nodes
  cases v with
  | closeListener l =>
    obtain ⟨-, hcloses⟩ := Traffic.fits_closeListener hfits l
    exact hcloses.calm.nodes
  | listen server network address funnel =>
    change c.net.nodes ≤ ((c.bridge i).listen server network address funnel).2.net.nodes
    rcases Traffic.listen_worded (c.bridge i) server network address funnel with
      ⟨e, he⟩ | ⟨s, -, ⟨f, -, he⟩ | ⟨l, -, he⟩⟩ <;> rw [he]
    · exact Nat.le_refl _
    · exact nodes_ask hw s.node (.listen network address funnel)
    · exact nodes_ask hw s.node (.listen network address funnel)
  | close server =>
    change c.net.nodes ≤ ((c.bridge i).close server).2.net.nodes
    cases hs : (c.bridge i).servers.find? server with
    | none =>
      rw [Bridge.close_none hs]
      exact Nat.le_refl _
    | some s =>
      obtain ⟨hwithout, hcloses⟩ := Traffic.fits_without hfits server
      have hclose := (Tailnet.calm_close hwithout.wired s.node).nodes
      rw [Bridge.close_some hs]
      refine Nat.le_trans hcloses.calm.nodes (Nat.le_trans hclose ?_)
      exact Nat.le_of_eq (Tailnet.nodes_releaseNode _ s.node).symm
  | _ => exact absurd rfl hv

theorem nodes_dropBridge (i : Nat) : c.net.nodes ≤ (c.toFleet.dropBridge i).net.nodes := by
  let b := (c.bridge i).closeListeners (c.bridge i).listeners.handles
  obtain ⟨-, hcloses⟩ := Traffic.fits_closeListeners (Traffic.fits_bridge hr.intact i)
    (c.bridge i).listeners.handles
  have hreleased := Tailnet.lasts_releaseNodes
    { b.net with streams := b.net.streams.closeAll (b.conns.entries.map Conn.descriptor) }
    (b.servers.entries.map Server.node)
  exact Nat.le_trans hcloses.calm.nodes hreleased.nodes

/-- Nodes are made and stay. -/
theorem nodes_move (hm : Move c c') : c.net.nodes ≤ c'.net.nodes := by
  have hw : c.net.Wired := hr.intact.wired
  cases hm with
  | newServer i _ => exact Nat.le_succ _
  | perform i v _ => exact nodes_perform hr i v
  | resume w _ =>
    rw [net_resume]
    exact (mild_takes (takes_resumed c w)).lasts.nodes
  | pump i k _ =>
    unfold Traffic.pump
    dsimp only
    split
    · rename_i f net hs
      rcases Traffic.moves_advance hw (Feed.advance_of_step hs) with ⟨_, hmoves⟩ | ⟨hcalm, -⟩
      · exact hmoves.toKept.nodes
      · exact hcalm.toKept.nodes
    · exact Nat.le_refl _
  | dropBridge i _ => exact nodes_dropBridge hr i
  | newNode => exact Nat.le_succ _
  | use m u _ _ =>
    rw [net_use]
    cases u with
    | configure option => exact nodes_ask hw m (.configure option)
    | start => exact nodes_ask hw m .start
    | up => exact nodes_ask hw m .up
    | loopback => exact nodes_ask hw m .loopback
    | close => exact nodes_ask hw m .close
    | listen network address funnel => exact nodes_ask hw m (.listen network address funnel)
    | dial network address => exact nodes_ask hw m (.dial network address)
  | closeListener l => exact (Tailnet.calm_closeListener hw l).nodes
  | useFiles files => exact Nat.le_refl _
  | useStream d u _ => exact Nat.le_refl _
  | release d _ => exact Nat.le_refl _

omit hr in
theorem stands_assign {j : Nat} {T : Tables} (ht : c'.tables = assign c.tables j T)
    (hT : (T.servers.find? h).map Server.node = some n → Stands c j h n)
    (hs : Stands c' i h n) : Stands c i h n := by
  rw [Stands, ht, assign_apply] at hs
  split at hs
  · rename_i hij
    rw [hij]
    exact hT hs
  · exact hs

/-- A handle that stands for a node did so before, unless the node is new. -/
theorem stands_move (hm : Move c c') (hs : Stands c' i h n) (hn : n < c.net.nodes) :
    Stands c i h n := by
  have hw : c.net.Wired := hr.intact.wired
  cases hm with
  | newServer j _ =>
    refine stands_assign rfl (fun hT => ?_) hs
    change (((c.tables j).servers.allocate ⟨c.net.nodes, {}⟩).2.find? h).map Server.node = _ at hT
    rw [HandleTable.find?_allocate] at hT
    split at hT
    · cases hT
      exact absurd hn (Nat.lt_irrefl _)
    · exact hT
  | perform j v _ =>
    let b := ((c.bridge j).perform v).2.keep ((c.bridge j).perform v).1
    exact stands_assign (T := b.toTables) rfl (Bridge.nodes_perform (b := c.bridge j) hw) hs
  | resume w _ =>
    refine stands_assign (tables_resume c w) (fun hT => ?_) hs
    rwa [(mild_takes (takes_resumed c w)).shaped.nodes] at hT
  | pump j k _ =>
    revert hs
    unfold Traffic.pump
    split
    · exact stands_assign rfl id
    · exact id
  | dropBridge j _ => exact stands_assign rfl (fun hT => by cases hT) hs
  | newNode => exact hs
  | use m u _ _ => rwa [Stands, tables_use] at hs
  | closeListener l => exact hs
  | useFiles files => exact hs
  | useStream d u _ => exact hs
  | release d _ => exact hs

end Moving

theorem Reachable.unmade (hr : Reachable c) : ∀ n, c.net.nodes ≤ n → c.net.node n = {} := by
  induction hr with
  | start suffix supply loopbackUp files => exact fun _ _ => rfl
  | @next c c' hr hm ih =>
    intro n hn
    have hold := Nat.le_trans (nodes_move hr hm) hn
    rw [(meets_move hr hm n).same fun e he => Nat.not_lt.mpr hold he.made]
    exact ih n hold

/-- Every local surface there is has credentials that were made for it. -/
theorem Reachable.minted (hr : Reachable c) (n : NodeId) : (c.net.node n).Minted := by
  induction hr with
  | start suffix supply loopbackUp files =>
    intro info hinfo
    cases hinfo
  | next hr hm ih => exact (meets_move hr hm n).minted ih

section Lasting
variable (hr : Reachable c) (hl : Later c c'')
include hr hl

theorem nodes_later : c.net.nodes ≤ c''.net.nodes := by
  induction hl with
  | refl => exact Nat.le_refl _
  | tail hl hm ih => exact Nat.le_trans ih (nodes_move (hr.later hl) hm)

/-- The local surface of a server lasts as long as the server. -/
theorem surfaced_later {info : LoopbackInfo} (hs : Stands c i h n) (hend : Stands c'' i h n)
    (hinfo : c.net.Surfaced n info) : c''.net.Surfaced n info := by
  induction hl with
  | refl => exact hinfo
  | @tail c₁ c₂ hl hm ih =>
    have hr₁ := hr.later hl
    have hmade := Nat.lt_of_lt_of_le (hs.made hr) (nodes_later hr hl)
    have hmeets := meets_move hr₁ hm n
    refine hmeets.surfaced ?_ ?_ (ih (stands_move hr₁ hm hend hmade))
    · exact fun he => he.ends (.inl rfl) i h hend
    · exact fun he => he.ends (.inr rfl) i h hend

end Lasting

end Custody
end Handoff
