import Handoff.Proofs.Custody.Lasting
import Handoff.Proofs.Custody.Tenure

namespace Handoff.Custody
open Traffic
variable {net net' : Tailnet} {tables tables' : Nat → Tables} {waiting : List Waiter}
  {log : List Event} {i : Nat} {b b' : Bridge Tailnet} {c c' : Custody}
  {node node' : NodeId → Tailnet.Node} {T T' : Tables}

/-- The listener a handle stands for is one of its server's node, and no server's node has ended. -/
structure Lodged (node : NodeId → Tailnet.Node) (T : Tables) : Prop where
  tidy : T.servers.Tidy
  homes : ∀ k e, T.listeners.find? k = some e → ∃ s, T.servers.find? e.server = some s ∧
    ∀ n, e.listener ∈ (node n).listeners → n = s.node
  alive : ∀ k s, T.servers.find? k = some s → (node s.node).phase ≠ .closed

structure Housed (net : Tailnet) (tables : Nat → Tables) : Prop where
  lodged : ∀ i, Lodged net.node (tables i)
  fresh : ∀ n, net.nodes ≤ n → (net.node n).phase ≠ .closed

/-- Tables with fewer handles. A listener that still has its handle has its server, too, and that
is on the same node. -/
structure Thinner (T T' : Tables) : Prop where
  tidy : T.servers.Tidy → T'.servers.Tidy
  entries : ∀ k e, T'.listeners.find? k = some e → T.listeners.find? k = some e ∧
    ∀ s, T.servers.find? e.server = some s →
      ∃ s', T'.servers.find? e.server = some s' ∧ s'.node = s.node
  servers : ∀ k s', T'.servers.find? k = some s' →
    ∃ s, T.servers.find? k = some s ∧ s.node = s'.node

theorem Thinner.of_shaped (ht : T.servers.Tidy → T'.servers.Tidy) (h : Shaped T T') :
    Thinner T T' where
  tidy := ht
  entries := fun k e he => by
    refine ⟨h.listeners ▸ he, fun s hs => ?_⟩
    have hn := h.nodes e.server
    rw [hs] at hn
    exact Option.map_eq_some_iff.mp hn
  servers := fun k s' hs' => h.find? hs'

theorem Thinner.refl (T : Tables) : Thinner T T :=
  .of_shaped id (Alike.refl T).toShaped

theorem Thinner.assign (h : Thinner T T') (j : Nat) :
    Thinner (assign tables i T j) (assign tables i T' j) :=
  assign_cases (P := fun _ => Thinner) h (fun _ _ _ => .refl _) j

theorem Lodged.thinner (h : Lodged node T) (ht : Thinner T T')
    (hlists : ∀ n, (node' n).listeners ⊆ (node n).listeners)
    (hphase : ∀ k s, T'.servers.find? k = some s → (node' s.node).phase = .closed →
      (node s.node).phase = .closed) : Lodged node' T' where
  tidy := ht.tidy h.tidy
  homes := fun k e he => by
    obtain ⟨hold, hserver⟩ := ht.entries k e he
    obtain ⟨s, hs, hhome⟩ := h.homes k e hold
    obtain ⟨s', hs', hnode⟩ := hserver s hs
    refine ⟨s', hs', fun n hn => ?_⟩
    rw [hnode]
    exact hhome n (hlists n hn)
  alive := fun k s' hs' hc => by
    obtain ⟨s, hs, hnode⟩ := ht.servers k s' hs'
    have hwas := hphase k s' hs' hc
    rw [← hnode] at hwas
    exact h.alive k s hs hwas

/-- A new server's handle was no server's. -/
theorem Lodged.newServer (h : Lodged node T) (hroom : T.servers.HasRoom) {n : NodeId}
    (hn : (node n).phase ≠ .closed) :
    Lodged node { T with servers := (T.servers.allocate ⟨n, {}⟩).2 } where
  tidy := h.tidy.allocate _
  homes := fun k e he => by
    obtain ⟨s, hs, hhome⟩ := h.homes k e he
    refine ⟨s, ?_, hhome⟩
    rw [HandleTable.find?_allocate, if_neg]
    · exact hs
    · intro hk
      rw [hk] at hs
      cases (HandleTable.find?_nextRaw h.tidy hroom).symm.trans hs
  alive := fun k s hs => by
    rw [HandleTable.find?_allocate] at hs
    split at hs
    · cases hs
      exact hn
    · exact h.alive k s hs

/-- Nodes may end that are no server's. -/
theorem Housed.thinner (h : Housed net tables) (ht : ∀ i, Thinner (tables i) (tables' i))
    (hlists : ∀ n, (net'.node n).listeners ⊆ (net.node n).listeners)
    (hphase : ∀ n, (net'.node n).phase = .closed → (net.node n).phase = .closed ∨
      n < net.nodes ∧ ∀ i k s, (tables' i).servers.find? k = some s → s.node ≠ n)
    (hnodes : net.nodes ≤ net'.nodes) : Housed net' tables' where
  lodged := fun i => (h.lodged i).thinner (ht i) hlists fun k s hs hc =>
    (hphase s.node hc).resolve_right fun hnone => hnone.2 i k s hs rfl
  fresh := fun n hn hc => by
    have hn := Nat.le_trans hnodes hn
    rcases hphase n hc with hwas | ⟨hlt, -⟩
    · exact h.fresh n hn hwas
    · exact absurd hlt (Nat.not_lt.mpr hn)

theorem Housed.lasts (h : Housed net tables) (hl : net.Lasts net')
    (ht : ∀ i, Thinner (tables i) (tables' i)) : Housed net' tables' :=
  h.thinner ht hl.lists (fun n hc => .inl (hl.phase n hc)) hl.nodes

theorem Housed.still (h : Housed net tables) (hl : net.Lasts net') : Housed net' tables :=
  h.lasts hl fun _ => .refl _

def Houses (tables : Nat → Tables) (i : Nat) (b : Bridge Tailnet) : Prop :=
  Housed b.net (assign tables i b.toTables)

theorem Houses.here (h : Houses tables i b) : Lodged b.net.node b.toTables := by
  have hi := h.lodged i
  rwa [assign_same] at hi

theorem Houses.lasts (h : Houses tables i b) (hl : b.net.Lasts b'.net)
    (ht : Thinner b.toTables b'.toTables) : Houses tables i b' :=
  Housed.lasts h hl ht.assign

theorem Houses.mild (h : Houses tables i b) (hm : Mild b b') : Houses tables i b' :=
  h.lasts hm.lasts (.of_shaped hm.tidy hm.shaped)

section Listening

/-- A listener that a node opens was nobody's. -/
theorem Housed.opens {n : NodeId} {l : ListenerId} (h : Housed net tables)
    (hs : Sound net tables waiting log) (ho : net.Opens net' n l)
    (hphase : ∀ m, (net'.node m).phase = .closed → (net.node m).phase = .closed) :
    Housed net' tables where
  lodged := fun i => {
    tidy := (h.lodged i).tidy
    homes := fun k e he => by
      obtain ⟨s, hserver, hhome⟩ := (h.lodged i).homes k e he
      refine ⟨s, hserver, fun m hm => ?_⟩
      rcases ho.lists m e.listener hm with hold | ⟨-, hnew⟩
      · exact hhome m hold
      · obtain ⟨hfeed, hlistener⟩ := hs.entries i k e he
        have hmade := hs.feeds i e.feed hfeed
        rw [hlistener] at hmade
        exact absurd hnew (ho.ne_of_lt hmade)
    alive := fun k s hserver hc => (h.lodged i).alive k s hserver (hphase _ hc) }
  fresh := fun m hm hc => h.fresh m (Nat.le_trans ho.nodes hm) (hphase m hc)

theorem phase_listen (t : Tailnet) (n : NodeId) (network address : String)
    (funnel : Option FunnelMode) (m : NodeId)
    (h : ((t.listen n network address funnel).2.node m).phase = .closed) :
    (t.node m).phase = .closed :=
  Tailnet.phase_ask (v := .listen network address funnel) nofun h

/-- A new listener's handle is on the node that opened it. -/
theorem Housed.gains {k : Handle} {e : ListenerEntry} {s : Server}
    (h : Housed net' tables) (hs : Sound net tables waiting log)
    (ho : net.Opens net' s.node e.listener) (hg : Gains tables tables' i k e)
    (hserver : (tables i).servers.find? e.server = some s) : Housed net' tables' where
  lodged := fun j => {
    tidy := hg.servers j ▸ (h.lodged j).tidy
    homes := fun m a ha => by
      rw [hg.servers]
      rcases hg.entry j m a ha with hold | ⟨rfl, -, rfl⟩
      · exact (h.lodged j).homes m a hold
      · refine ⟨s, hserver, fun n hn => ?_⟩
        rcases ho.lists n a.listener hn with hold | ⟨hn, -⟩
        · exact absurd rfl (ho.ne_of_lt (hs.wired.listed n a.listener hold))
        · exact hn
    alive := fun m a ha => (h.lodged j).alive m a (hg.servers j ▸ ha) }
  fresh := h.fresh

theorem houses_listen (hf : Fits tables waiting log i b) (h : Houses tables i b)
    (hroom : b.listeners.HasRoom) (server : Handle) (network address : String)
    (funnel : Option FunnelMode) : Houses tables i (b.listen server network address funnel).2 := by
  have hw : b.net.Wired := hf.wired
  rcases listen_worded b server network address funnel with ⟨e, he⟩ | ⟨s, hs, hop⟩
  · rw [he]
    exact h
  · have hcases := Tailnet.listen_cases hw s.node network address funnel
    have hphase := phase_listen b.net s.node network address funnel
    rcases hop with ⟨f, hfault, he⟩ | ⟨l, hl, he⟩
    · rw [he]
      rcases hcases with ⟨_, -, hc, -⟩ | ⟨l, hl, -⟩
      · have hlasts : b.net.Lasts (b.net.listen s.node network address funnel).2 :=
          ⟨hc.lists, hphase, hc.nodes⟩
        exact h.mild ((mild_net hlasts).trans (mild_record _ server _))
      · cases hfault.symm.trans hl
    · rw [he]
      rcases hcases with ⟨f, hfault, -, -⟩ | ⟨k, hk, ho⟩
      · cases hfault.symm.trans hl
      · obtain rfl : k = l := Except.ok.inj (hk.symm.trans hl)
        let net := (b.net.listen s.node network address funnel).2
        have hopened : Housed net (assign tables i b.toTables) := Housed.opens h hf ho hphase
        have hgains := gains_addListener (b := { b with net }) hf.tidy hroom server k
        exact hopened.gains hf ho hgains (by rwa [assign_same])

end Listening

section Closing

theorem thinner_closeListener (b : Bridge Tailnet) (l : Handle) :
    Thinner b.toTables (b.closeListener l).2.toTables := by
  obtain ⟨hs, hl⟩ := b.closeListener_tables l
  refine ⟨fun ht => hs ▸ ht, fun k e he => ?_, fun k s hk => ⟨s, hs ▸ hk, rfl⟩⟩
  rw [hl] at he
  split at he
  · cases he
  · refine ⟨he, fun s hserver => ⟨s, ?_, rfl⟩⟩
    rwa [hs]

theorem houses_closeListener (hf : Fits tables waiting log i b) (h : Houses tables i b)
    (l : Handle) : Houses tables i (b.closeListener l).2 := by
  obtain ⟨-, hcloses⟩ := fits_closeListener hf l
  have hlasts := Tailnet.Lasts.of_node (node_closeListener b l) hcloses.calm.nodes
  exact h.lasts hlasts (thinner_closeListener b l)

theorem find?_close {server : Handle} {s : Server} (hs : b.servers.find? server = some s)
    (k : Handle) : (b.close server).2.servers.find? k =
      if k = server then none else b.servers.find? k := by
  rw [(b.close_tables server hs).1]
  exact HandleTable.find?_erase ..

theorem thinner_close {server : Handle} {s : Server} (hs : b.servers.find? server = some s) :
    Thinner b.toTables (b.close server).2.toTables := by
  obtain ⟨hservers, hentries⟩ := b.close_tables server hs
  refine ⟨fun ht => hservers ▸ ht.erase server, fun k e he => ?_, fun k s' hk => ?_⟩
  · obtain ⟨hold, hne⟩ := hentries k e he
    refine ⟨hold, fun s' hs' => ⟨s', ?_, rfl⟩⟩
    rwa [find?_close hs, if_neg hne]
  · rw [find?_close hs] at hk
    split at hk
    · cases hk
    · exact ⟨s', hk, rfl⟩

/-- Only the server that is closed was on its node. -/
theorem apart_close (hf : Fits tables waiting log i b) {server : Handle} {s : Server}
    (hs : b.servers.find? server = some s) (j : Nat) (k : Handle) (s' : Server)
    (hk : (assign tables i (b.close server).2.toTables j).servers.find? k = some s') :
    s'.node ≠ s.node := by
  intro he
  have hserver : (assign tables i b.toTables i).servers.find? server = some s := by
    rwa [assign_same]
  by_cases hj : j = i
  · subst j
    rw [assign_same, find?_close hs] at hk
    split at hk
    · cases hk
    · rename_i hne
      exact hne (hf.apart i i k server s' s (by rwa [assign_same]) hserver he).2
  · rw [assign_of_ne _ _ _ hj] at hk
    exact hj (hf.apart j i k server s' s (by rwa [assign_of_ne _ _ _ hj]) hserver he).1

/-- What the end of a server comes to: its node ends, and handles of its listeners go with it. -/
theorem houses_close (hf : Fits tables waiting log i b) (h : Houses tables i b)
    (server : Handle) : Houses tables i (b.close server).2 := by
  cases hs : b.servers.find? server with
  | none =>
    rw [Bridge.close_none hs]
    exact h
  | some s =>
    obtain ⟨hfits, hcloses⟩ := fits_without hf server
    let net := (b.without server).net
    have hsame : net.node = b.net.node := node_without b server
    have hcalm := Tailnet.calm_close hfits.wired s.node
    have hlast := Tailnet.lasts_releaseNode (net.close s.node).2 s.node
    have hnet : (b.close server).2.net = (net.close s.node).2.releaseNode s.node := by
      rw [Bridge.close_some hs]
      rfl
    refine Housed.thinner h (thinner_close hs).assign ?_ ?_ ?_
    · intro n
      rw [hnet, ← hsame]
      exact List.Subset.trans (hlast.lists n) (hcalm.lists n)
    · intro n hc
      rw [hnet] at hc
      by_cases hn : n = s.node
      · rw [hn]
        exact .inr ⟨hf.nodes i server s (by rwa [assign_same]), apart_close hf hs⟩
      · have hold := hlast.phase n hc
        rw [Tailnet.node_close_ne hn, hsame] at hold
        exact .inl hold
    · rw [hnet]
      exact Nat.le_trans hcloses.calm.nodes (Nat.le_trans hcalm.nodes hlast.nodes)

theorem housed_drop (hf : Fits tables waiting log i b) (h : Houses tables i b) :
    Housed b.drop (assign tables i {}) := by
  obtain ⟨-, hcloses⟩ := fits_closeListeners hf b.listeners.handles
  let b₁ := b.closeListeners b.listeners.handles
  have hclosed : b.net.Lasts b₁.net :=
    .of_node (node_closeListeners b _) hcloses.calm.nodes
  have hstreams : b₁.net.Lasts { b₁.net with
      streams := b₁.net.streams.closeAll (b₁.conns.entries.map Conn.descriptor) } :=
    .of_node rfl (Nat.le_refl _)
  have hreleased := Tailnet.lasts_releaseNodes { b₁.net with
    streams := b₁.net.streams.closeAll (b₁.conns.entries.map Conn.descriptor) }
    (b₁.servers.entries.map Server.node)
  have hthin : Thinner b.toTables {} :=
    ⟨fun _ => HandleTable.tidy_empty _ (by decide), nofun, nofun⟩
  exact Housed.lasts h ((hclosed.trans hstreams).trans hreleased) hthin.assign

end Closing

/-- A new server's node has not ended. -/
theorem houses_newServer (h : Houses tables i b) (hroom : b.servers.HasRoom) :
    Houses tables i b.newServer.2 where
  lodged := fun j => assign_cases
    (P := fun _ T T' => Lodged b.net.node T → Lodged b.net.node T')
    (fun hold => hold.newServer hroom (h.fresh _ (Nat.le_refl _))) (fun _ _ _ => id) j
    (h.lodged j)
  fresh := fun n hn => h.fresh n (Nat.le_of_succ_le hn)

theorem houses_perform (hf : Fits tables waiting log i b) (h : Houses tables i b) (verb : Verb)
    (hroom : ∀ server network address funnel,
      verb = .listen server network address funnel → b.listeners.HasRoom) :
    Houses tables i (b.perform verb).2 := by
  cases verb with
  | close server => exact houses_close hf h server
  | listen server network address funnel =>
    exact houses_listen hf h (hroom _ _ _ _ rfl) server network address funnel
  | closeListener l => exact houses_closeListener hf h l
  | _ => exact h.mild (mild_perform hf.wired rfl)

theorem houses_bridge (h : Housed c.net c.tables) (i : Nat) : Houses c.tables i (c.bridge i) := by
  unfold Houses
  rw [show (c.bridge i).toTables = c.tables i from rfl, assign_self]
  exact h

section Moving
variable (hs : c.Intact) (h : Housed c.net c.tables)
include hs h

theorem housed_use {n : NodeId} (hn : n < c.net.nodes) (hloose : c.Loose n) (u : NodeUse) :
    Housed (c.use n u).net (c.use n u).tables := by
  have hw : c.net.Wired := hs.wired
  cases u with
  | configure option => exact h.still (Tailnet.lasts_ask hw (v := .configure option) rfl n)
  | start => exact h.still (Tailnet.lasts_ask hw (v := .start) rfl n)
  | up => exact h.still (Tailnet.lasts_ask hw (v := .up) rfl n)
  | loopback => exact h.still (Tailnet.lasts_ask hw (v := .loopback) rfl n)
  | close =>
    have hc := Tailnet.calm_close hw n
    refine h.thinner (fun _ => .refl _) hc.lists (fun m hm => ?_) hc.nodes
    by_cases hmn : m = n
    · exact .inr ⟨hmn ▸ hn, hmn ▸ hloose⟩
    · left
      rwa [← Tailnet.node_close_ne (t := c.net) hmn]
  | listen network address funnel =>
    have hphase := phase_listen c.net n network address funnel
    rcases Tailnet.listen_cases hw n network address funnel with ⟨_, -, hc, -⟩ | ⟨l, -, ho⟩
    · exact h.still ⟨hc.lists, hphase, hc.nodes⟩
    · exact h.opens hs ho hphase
  | dial network address =>
    have hlasts := Tailnet.lasts_dial hw n network address
    unfold use Traffic.use
    dsimp only
    revert hlasts
    generalize c.net.dial n network address = r
    obtain ⟨r, net⟩ := r
    intro hlasts
    cases r with
    | error f => exact h.still hlasts
    | ok d => exact h.still hlasts

theorem housed_move (hm : Move c c') : Housed c'.net c'.tables := by
  have hnode : ∀ {net}, net.node = c.net.node → c.net.nodes ≤ net.nodes →
      Housed net c.tables := fun hnode hnodes => h.still (.of_node hnode hnodes)
  cases hm with
  | newServer i hroom => exact houses_newServer (houses_bridge h i) hroom
  | perform i verb hroom =>
    exact (houses_perform (fits_bridge hs i) (houses_bridge h i) verb hroom).mild (mild_keep _ _)
  | resume w _ =>
    rw [net_resume, tables_resume]
    exact (houses_bridge h w.bridge).mild (mild_takes (takes_resumed c w))
  | pump i k _ =>
    unfold Traffic.pump
    split
    · rename_i f net hstep
      have ha := Feed.advance_of_step hstep
      have hkept : c.net.Kept net := by
        rcases moves_advance hs.wired ha with ⟨_, hmoves⟩ | ⟨hcalm, -⟩
        · exact hmoves.toKept
        · exact hcalm.toKept
      have hmild : Mild (c.bridge i) (({ c.bridge i with net } : Bridge Tailnet).setFeed k f) :=
        ⟨.of_node (Feed.node_advance ha) hkept.nodes, id,
          (alikeBut_setFeed (c.tables i) k f (Feed.listener_advance ha)).toShaped⟩
      exact (houses_bridge h i).mild hmild
    · exact h
  | dropBridge i _ => exact housed_drop (fits_bridge hs i) (houses_bridge h i)
  | newNode => exact hnode rfl (Nat.le_succ _)
  | use n u hn hloose => exact housed_use hs h hn hloose u
  | closeListener l =>
    exact hnode (Tailnet.node_closeListener ..) (Tailnet.calm_closeListener hs.wired l).nodes
  | useFiles files => exact hnode rfl (Nat.le_refl _)
  | useStream d u _ => exact hnode rfl (Nat.le_refl _)
  | release d _ => exact hnode rfl (Nat.le_refl _)

end Moving

theorem Reachable.housed (h : Reachable c) : Housed c.net c.tables := by
  induction h with
  | start suffix supply loopbackUp files =>
    exact {
      lodged := fun _ => ⟨HandleTable.tidy_empty _ (by decide), nofun, nofun⟩
      fresh := fun _ _ => nofun }
  | next hr hm ih => exact housed_move hr.intact ih hm

end Handoff.Custody
