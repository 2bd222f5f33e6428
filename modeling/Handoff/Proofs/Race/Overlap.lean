import Handoff.Bridge.Closing
import Handoff.Proofs.Race.Pump
import Handoff.Proofs.Tailnet.Ending
import Handoff.Proofs.Traffic.Reachable

namespace Handoff

inductive Stage where
  | idle
  /-- A listen has looked the server up. -/
  | found (server : Handle) (node : NodeId)
  /-- The node listens, and the listener has no handle yet. -/
  | opened (server : Handle) (listener : ListenerId)
  /-- A close has retired the server's handle. -/
  | retired (server : Handle) (node : NodeId)
  /-- It closes the listeners' handles that it saw, one after the other. -/
  | closing (server : Handle) (node : NodeId) (rest : List Handle)

def Stage.closes : Stage → Option (Handle × NodeId)
  | retired server node | closing server node _ => some (server, node)
  | _ => none

/-- A bridge and the calls under way on it, of which each does one thing at a time. -/
structure Calls where
  bridge : Bridge Tailnet
  stage : Nat → Stage := fun _ => .idle

namespace Calls

def setStage (c : Calls) (k : Nat) (s : Stage) : Calls :=
  { c with stage := assign c.stage k s }

def setNet (c : Calls) (net : Tailnet) : Calls :=
  { c with bridge := { c.bridge with net } }

/-- One thing that one call does, while it has the one table or the node that it needs. -/
inductive Step (c : Calls) : Calls → Prop where
  | newServer : c.bridge.servers.isLive c.bridge.servers.nextRaw = false →
    Step c { c with bridge := c.bridge.newServer.2 }
  | find {k : Nat} {server : Handle} {s : Server} : c.stage k = .idle →
    c.bridge.servers.get server = .ok s → Step c (c.setStage k (.found server s.node))
  | listen {k : Nat} {server : Handle} {n : NodeId} {network address : String}
    {funnel : Option FunnelMode} {l : ListenerId} {net : Tailnet} : c.stage k = .found server n →
    Network.listen n network address funnel c.bridge.net = (.ok l, net) →
    Step c ((c.setNet net).setStage k (.opened server l))
  | refuse {k : Nat} {server : Handle} {n : NodeId} {network address : String}
    {funnel : Option FunnelMode} {f : Failure} {net : Tailnet} : c.stage k = .found server n →
    Network.listen n network address funnel c.bridge.net = (.error f, net) →
    Step c (setStage { c with bridge := ((c.setNet net).bridge.fail (α := Handle) server f).2 } k
      .idle)
  | register {k : Nat} {server : Handle} {l : ListenerId} : c.stage k = .opened server l →
    Step c (setStage { c with bridge := (c.bridge.addListener server l).2 } k .idle)
  | retire {k : Nat} {server : Handle} {s : Server} {servers : HandleTable Server} :
    c.stage k = .idle → c.bridge.servers.close server = .ok (s, servers) →
    Step c (setStage { c with bridge := { c.bridge with servers } } k (.retired server s.node))
  | list {k : Nat} {server : Handle} {n : NodeId} : c.stage k = .retired server n →
    Step c (c.setStage k (.closing server n (c.bridge.listenersOf server)))
  | closeNext {k : Nat} {server : Handle} {n : NodeId} {h : Handle} {rest : List Handle} :
    c.stage k = .closing server n (h :: rest) →
    Step c (setStage { c with bridge := (c.bridge.closeListener h).2 } k (.closing server n rest))
  | finish {k : Nat} {server : Handle} {n : NodeId} : c.stage k = .closing server n [] →
    Step c ((c.setNet (Network.releaseNode n (Network.close n c.bridge.net).2)).setStage k .idle)
  | closeListener (h : Handle) : Step c { c with bridge := (c.bridge.closeListener h).2 }

inductive Reached : Calls → Prop where
  | start (suffix : String) (supply : Tailnet.Supply) (loopbackUp : Bool) (files : Files) :
    Reached { bridge := { net := { suffix, supply, loopbackUp, files } } }
  | step {c c' : Calls} : Reached c → Step c c' → Reached c'

def Held (c : Calls) (server : Handle) (n : NodeId) : Prop :=
  (∃ s, c.bridge.servers.find? server = some s ∧ s.node = n) ∨
    ∃ k, (c.stage k).closes = some (server, n)

/-- A listener that a node still has belongs to a server that has not been closed to the end. -/
def Homes (c : Calls) (server : Handle) (l : ListenerId) : Prop :=
  l < c.bridge.net.listeners ∧ ∀ m, l ∈ (c.bridge.net.node m).listeners → c.Held server m

def Known (c : Calls) (server : Handle) (n : NodeId) : Prop :=
  c.Held server n ∨ (c.bridge.net.node n).phase = .closed

def Fed (b : Bridge Tailnet) : Prop :=
  ∀ h e, b.listeners.find? h = some e → e.feed < b.feeds ∧
    (b.feed e.feed).listener = e.listener

structure Homed (c : Calls) : Prop where
  wired : c.bridge.net.Wired
  owned : c.bridge.net.Owned
  emptied : c.bridge.net.Emptied
  fed : Fed c.bridge
  entries : ∀ h e, c.bridge.listeners.find? h = some e → c.Homes e.server e.listener
  found : ∀ k server n, c.stage k = .found server n → c.Known server n
  opened : ∀ k server l, c.stage k = .opened server l → c.Homes server l

section Step
variable {c c' : Calls} {k : Nat}

/-- A step that opens no listener keeps every server that is not closed, or ends its node. -/
structure Keeps (c c' : Calls) : Prop where
  kept : c.bridge.net.Kept c'.bridge.net
  ends : c.bridge.net.Ends c'.bridge.net
  held : ∀ server n, c.Held server n → c'.Known server n

theorem Keeps.known (hk : Keeps c c') {server : Handle} {n : NodeId} (h : c.Known server n) :
    c'.Known server n :=
  h.elim (hk.held server n) fun hc => .inr (hk.ends.closed n hc)

theorem Keeps.homes (hk : Keeps c c') (he : c.bridge.net.Emptied) {server : Handle}
    {l : ListenerId} (h : c.Homes server l) : c'.Homes server l := by
  refine ⟨hk.kept.listeners ▸ h.1, fun m hm => ?_⟩
  refine (hk.held server m (h.2 m (hk.kept.lists m hm))).resolve_right fun hc => ?_
  rw [hk.ends.emptied he m hc] at hm
  cases hm

theorem Homed.keeps (h : Homed c) (hk : Keeps c c') (hfed : Fed c'.bridge)
    (hentries : ∀ x e, c'.bridge.listeners.find? x = some e → c.Homes e.server e.listener)
    (hfound : ∀ k server n, c'.stage k = .found server n → c.Known server n)
    (hopened : ∀ k server l, c'.stage k = .opened server l → c.Homes server l) : Homed c' where
  wired := hk.kept.wired
  owned := hk.kept.owned h.owned
  emptied := hk.ends.emptied h.emptied
  fed := hfed
  entries := fun x e he => hk.homes h.emptied (hentries x e he)
  found := fun k server n hs => hk.known (hfound k server n hs)
  opened := fun k server l hs => hk.homes h.emptied (hopened k server l hs)

/-- Servers keep their nodes, and closes go on. -/
theorem Held.same {server : Handle} {n : NodeId} (h : c.Held server n)
    (hs : ∀ x s, c.bridge.servers.find? x = some s →
      ∃ s', c'.bridge.servers.find? x = some s' ∧ s'.node = s.node)
    (hc : ∀ k, (c'.stage k).closes = (c.stage k).closes) : c'.Held server n := by
  rcases h with ⟨s, hf, rfl⟩ | ⟨k, hk⟩
  · exact .inl (hs server s hf)
  · exact .inr ⟨k, by rwa [hc]⟩

theorem closes_assign {s : Stage} (h : s.closes = (c.stage k).closes) (j : Nat) :
    (assign c.stage k s j).closes = (c.stage j).closes := by
  rw [assign_apply]
  split
  · rw [‹j = k›, h]
  · rfl

theorem stage_of_assign {s x : Stage} {j : Nat} (h : assign c.stage k s j = x) :
    s = x ∨ c.stage j = x := by
  rw [assign_apply] at h
  split at h
  · exact .inl h
  · exact .inr h

structure Unlists (b b' : Bridge Tailnet) (h : Handle) : Prop extends Traffic.Closes b b' [h] where
  fed : Fed b'
  node : b'.net.node = b.net.node

theorem unlists_closeListener {b : Bridge Tailnet} (hw : b.net.Wired) (hf : Fed b) (h : Handle) :
    Unlists b (b.closeListener h).2 h := by
  have hcloses := Traffic.closes_closeListener hw h fun e he => (hf h e he).2
  cases he : b.listeners.find? h with
  | none =>
    rw [Bridge.closeListener_none he] at hcloses ⊢
    exact ⟨hcloses, hf, rfl⟩
  | some e =>
    rw [Bridge.closeListener_some he] at hcloses ⊢
    refine ⟨hcloses, fun x a ha => ?_, ?_⟩
    · obtain ⟨hlt, hfeed⟩ := hf x a ((hcloses.listeners x a).mp ha).1
      exact ⟨hlt, (Traffic.listener_endFeed ..).trans hfeed⟩
    · exact (Traffic.node_endFeed ..).trans (Tailnet.node_closeListener b.net e.listener)

/-- A call that gets further, unless a listen does. -/
theorem Homed.advance (h : Homed c) {s : Stage} (hclose : s.closes = (c.stage k).closes)
    (hf : ∀ server n, s ≠ .found server n) (ho : ∀ server l, s ≠ .opened server l) :
    Homed (c.setStage k s) := by
  refine h.keeps ⟨.refl h.wired, .of_node rfl, fun server n hheld => .inl ?_⟩ h.fed h.entries
    (fun j server n hj => h.found j server n ((stage_of_assign hj).resolve_left (hf server n)))
    fun j server l hj => h.opened j server l ((stage_of_assign hj).resolve_left (ho server l))
  exact hheld.same (fun x a hx => ⟨a, hx, rfl⟩) (closes_assign hclose)

theorem Homed.unlists (h : Homed c) {b : Bridge Tailnet} {x : Handle}
    (hu : Unlists c.bridge b x) :
    Homed { c with bridge := b } := by
  refine h.keeps ⟨hu.calm.toKept, .of_node hu.node, fun server n hheld => .inl ?_⟩ hu.fed
    (fun x e he => h.entries x e ((hu.listeners x e).mp he).1) h.found h.opened
  exact hheld.same (fun x a hx => ⟨a, (congrArg (·.find? x) hu.servers).trans hx, rfl⟩)
    fun _ => rfl

/-- A listen of the node opens a listener of it, unless it has ended. -/
theorem Homed.listen (h : Homed c) {server : Handle} {n : NodeId} {network address : String}
    {funnel : Option FunnelMode} {l : ListenerId} (hk : c.stage k = .found server n)
    (hl : (c.bridge.net.listen n network address funnel).1 = .ok l) :
    Homed ((c.setNet (c.bridge.net.listen n network address funnel).2).setStage k
      (.opened server l)) := by
  have hends := Tailnet.ends_listen c.bridge.net n network address funnel
  have hheld : ∀ x m, c.Held x m → ((c.setNet (c.bridge.net.listen n network address
      funnel).2).setStage k (.opened server l)).Held x m := fun x m hh =>
    hh.same (fun x a hx => ⟨a, hx, rfl⟩) (closes_assign (congrArg Stage.closes hk).symm)
  have hhere : c.Held server n := by
    refine (h.found k server n hk).resolve_right fun hc => ?_
    obtain ⟨f, hf⟩ := Tailnet.listen_closed hc network address funnel
    rw [hf] at hl
    cases hl
  rcases Tailnet.listen_cases h.wired n network address funnel with ⟨f, hf, -⟩ | ⟨l', hl', ho⟩
  · rw [hf] at hl
    cases hl
  · obtain rfl := Except.ok.inj (hl'.symm.trans hl)
    have hhomes : ∀ x m, c.Homes x m → ((c.setNet (c.bridge.net.listen n network address
        funnel).2).setStage k (.opened server l')).Homes x m := by
      intro x m hx
      refine ⟨ho.listeners ▸ Nat.lt_succ_of_lt hx.1, fun i hi => hheld x i (hx.2 i ?_)⟩
      exact (ho.lists i m hi).resolve_right fun hm => ho.ne_of_lt hx.1 hm.2
    exact {
      wired := ho.wired
      owned := ho.owned h.owned
      emptied := hends.emptied h.emptied
      fed := h.fed
      entries := fun x e he => hhomes _ _ (h.entries x e he)
      found := fun j x m hj =>
        (h.found j x m ((stage_of_assign hj).resolve_left nofun)).imp (hheld x m)
          (hends.closed m)
      opened := fun j x m hj => by
        rcases stage_of_assign hj with he | he
        · obtain ⟨rfl, rfl⟩ := Stage.opened.inj he
          refine ⟨ho.listeners ▸ ho.made ▸ Nat.lt_succ_self _, fun i hi => ?_⟩
          rcases ho.lists i _ hi with hold | ⟨rfl, -⟩
          · exact absurd (h.wired.listed i _ hold) (ho.made ▸ Nat.lt_irrefl _)
          · exact hheld _ _ hhere
        · exact hhomes x m (h.opened j x m he) }

theorem Homed.refuse (h : Homed c) (server : Handle) {n : NodeId} {network address : String}
    {funnel : Option FunnelMode} (f : Failure)
    (hc : c.bridge.net.Calm (c.bridge.net.listen n network address funnel).2) :
    Homed { c with bridge := ((c.setNet (c.bridge.net.listen n network address
      funnel).2).bridge.fail (α := Handle) server f).2 } := by
  have hends := Tailnet.ends_listen c.bridge.net n network address funnel
  refine h.keeps ⟨hc.toKept, hends, fun x m hheld => .inl ?_⟩ h.fed h.entries h.found h.opened
  refine hheld.same (fun y a hy => ?_) fun _ => rfl
  change ∃ s', (c.bridge.servers.modify server _).find? y = some s' ∧ _
  rw [HandleTable.find?_modify]
  split
  · rw [hy]
    exact ⟨_, rfl, rfl⟩
  · exact ⟨a, hy, rfl⟩

/-- A listener gets a handle and a feed that nobody had. -/
theorem Homed.register (h : Homed c) {server : Handle} {l : ListenerId}
    (hk : c.stage k = .opened server l) :
    Homed { c with bridge := (c.bridge.addListener server l).2 } := by
  have hnew : ∀ x e, (c.bridge.addListener server l).2.listeners.find? x = some e →
      e = ⟨server, l, c.bridge.feeds⟩ ∨ c.bridge.listeners.find? x = some e := by
    intro x e he
    change (c.bridge.listeners.allocate _).2.find? x = some e at he
    rw [HandleTable.find?_allocate] at he
    split at he
    · exact .inl (Option.some.inj he).symm
    · exact .inr he
  refine h.keeps ⟨.refl h.wired, .of_node rfl, fun x m hheld => .inl ?_⟩ (fun x e he => ?_)
    (fun x e he => ?_) h.found h.opened
  · exact hheld.same (fun y a hy => ⟨a, hy, rfl⟩) fun _ => rfl
  · rcases hnew x e he with rfl | hold
    · exact ⟨Nat.lt_succ_self _, congrArg Feed.listener (assign_same ..)⟩
    · obtain ⟨hlt, hfeed⟩ := h.fed x e hold
      refine ⟨Nat.lt_succ_of_lt hlt, ?_⟩
      exact (congrArg Feed.listener (assign_of_ne _ _ _ (Nat.ne_of_lt hlt))).trans hfeed
  · rcases hnew x e he with rfl | hold
    · exact h.opened k server l hk
    · exact h.entries x e hold

/-- The end of a close leaves no listener to the node. -/
theorem Homed.finish (h : Homed c) {server : Handle} {n : NodeId}
    (hk : c.stage k = .closing server n []) :
    Homed ((c.setNet ((c.bridge.net.close n).2.releaseNode n)).setStage k .idle) := by
  have hclose := Tailnet.calm_close h.wired n
  have hends := Tailnet.ends_close c.bridge.net n
  have hcalm : c.bridge.net.Calm ((c.bridge.net.close n).2.releaseNode n) := by
    refine hclose.trans (Tailnet.calm_releaseNode hclose.wired fun l hl => ?_)
    rw [Tailnet.listeners_close h.emptied] at hl
    cases hl
  refine h.keeps ⟨hcalm.toKept, hends, fun x m hheld => ?_⟩ h.fed h.entries
    (fun j x m hj => h.found j x m ((stage_of_assign hj).resolve_left nofun))
    fun j x l hj => h.opened j x l ((stage_of_assign hj).resolve_left nofun)
  rcases hheld with ⟨a, ha, rfl⟩ | ⟨j, hj⟩
  · exact .inl (.inl ⟨a, ha, rfl⟩)
  · by_cases hjk : j = k
    · subst hjk
      rw [hk] at hj
      obtain ⟨-, rfl⟩ := Prod.mk.inj (Option.some.inj hj)
      refine .inr ?_
      change (((c.bridge.net.close n).2.releaseNode n).node n).phase = .closed
      rw [Tailnet.node_releaseNode, if_pos rfl]
      exact Tailnet.phase_close c.bridge.net n
    · exact .inl (.inr ⟨j, (congrArg Stage.closes (assign_of_ne _ _ _ hjk)).trans hj⟩)

theorem Homed.step (h : Homed c) (hs : Step c c') : Homed c' := by
  cases hs with
  | newServer hfree =>
    have hcalm := Tailnet.calm_newNode h.wired
    refine h.keeps ⟨hcalm.toKept, .of_node rfl, fun server n hheld => .inl ?_⟩ h.fed h.entries
      h.found h.opened
    refine hheld.same (fun x s hx => ⟨s, ?_, rfl⟩) fun _ => rfl
    change (c.bridge.servers.allocate _).2.find? x = some s
    rw [HandleTable.find?_allocate, if_neg]
    · exact hx
    · rintro rfl
      have hnone : c.bridge.servers.find? ⟨c.bridge.servers.nextRaw⟩ = none :=
        HandleTable.isLive_eq_false_iff.mp hfree
      cases hnone.symm.trans hx
  | find hk hget =>
    have hfind := HandleTable.get_ok_iff.mp hget
    refine h.keeps ⟨.refl h.wired, .of_node rfl, fun server n hheld => .inl ?_⟩ h.fed h.entries
      (fun j server n hj => ?_)
      fun j server l hj => h.opened j server l ((stage_of_assign hj).resolve_left nofun)
    · exact hheld.same (fun x s hx => ⟨s, hx, rfl⟩) (closes_assign (by rw [hk]; rfl))
    · rcases stage_of_assign hj with he | he
      · obtain ⟨rfl, rfl⟩ := Stage.found.inj he
        exact .inl (.inl ⟨_, hfind, rfl⟩)
      · exact h.found j server n he
  | listen hk hl =>
    obtain ⟨hok, rfl⟩ := Tailnet.listen_ok hl
    exact h.listen hk hok
  | refuse hk hl =>
    obtain ⟨hc, rfl⟩ := Tailnet.listen_error h.wired hl
    exact (h.refuse _ _ hc).advance (by rw [hk]; rfl) nofun nofun
  | register hk => exact (h.register hk).advance (by rw [hk]; rfl) nofun nofun
  | @retire k server s servers hk hclose =>
    obtain ⟨hfind, rfl⟩ := HandleTable.close_ok_iff.mp hclose
    refine h.keeps ⟨.refl h.wired, .of_node rfl, fun x n hheld => .inl ?_⟩ h.fed h.entries
      (fun j x n hj => h.found j x n ((stage_of_assign hj).resolve_left nofun))
      fun j x l hj => h.opened j x l ((stage_of_assign hj).resolve_left nofun)
    rcases hheld with ⟨a, ha, rfl⟩ | ⟨j, hj⟩
    · by_cases hx : x = server
      · subst hx
        obtain rfl := Option.some.inj (hfind.symm.trans ha)
        exact .inr ⟨k, congrArg Stage.closes (assign_same ..)⟩
      · refine .inl ⟨a, ?_, rfl⟩
        change (c.bridge.servers.erase server).find? x = some a
        rw [HandleTable.find?_erase, if_neg hx]
        exact ha
    · have hjk : j ≠ k := by
        rintro rfl
        rw [hk] at hj
        cases hj
      exact .inr ⟨j, (congrArg Stage.closes (assign_of_ne _ _ _ hjk)).trans hj⟩
  | list hk => exact h.advance (by rw [hk]; rfl) nofun nofun
  | closeNext hk =>
    exact (h.unlists (unlists_closeListener h.wired h.fed _)).advance (by rw [hk]; rfl) nofun nofun
  | finish hk => exact h.finish hk
  | closeListener x => exact h.unlists (unlists_closeListener h.wired h.fed x)

theorem Reached.homed (h : Reached c) : Homed c := by
  induction h with
  | start suffix supply loopbackUp files =>
    have hs := Traffic.intact_start suffix supply loopbackUp files
    exact ⟨hs.wired, hs.owned, fun _ _ => rfl, nofun, nofun, nofun, nofun⟩
  | step _ hs ih => exact ih.step hs

end Step

section Whole
variable {c : Calls} {k : Nat}

/-- A call that has returned leaves no trace but what it did to the bridge. -/
theorem stage_returned (hk : c.stage k = .idle) (s : Stage) :
    assign (assign c.stage k s) k .idle = c.stage := by
  rw [assign_assign, ← hk, assign_self]

/-- A listen that nobody interferes with is the listen of the bridge. -/
theorem Reached.listen (h : Reached c) (hk : c.stage k = .idle) (server : Handle)
    (network address : String) (funnel : Option FunnelMode) :
    Reached { c with bridge := (c.bridge.listen server network address funnel).2 } := by
  unfold Bridge.listen Bridge.withNode
  cases hs : c.bridge.servers.get server with
  | error e => exact h
  | ok s =>
    have hfind := h.step (.find hk hs)
    have hfound : (c.setStage k (.found server s.node)).stage k = .found server s.node :=
      assign_same ..
    dsimp only
    cases hl : Network.listen s.node network address funnel c.bridge.net with
    | mk r net =>
      cases r with
      | error f =>
        have hend := hfind.step (.refuse hfound hl)
        rw [setStage, setStage] at hend
        dsimp only at hend
        rw [stage_returned hk] at hend
        exact hend
      | ok l =>
        have hopen := hfind.step (.listen hfound hl)
        have hend := hopen.step (.register (assign_same ..))
        rw [setStage, setStage, setStage] at hend
        dsimp only [setNet] at hend
        rw [assign_assign, stage_returned hk] at hend
        exact hend

theorem Reached.closeListeners {server : Handle} {n : NodeId} {rest : List Handle} (h : Reached c)
    (hk : c.stage k = .closing server n rest) :
    Reached { bridge := c.bridge.closeListeners rest
              stage := assign c.stage k (.closing server n []) } := by
  induction rest generalizing c with
  | nil =>
    rw [← hk, assign_self]
    exact h
  | cons x rest ih =>
    have hrest := ih (h.step (.closeNext hk)) (assign_same ..)
    rw [setStage] at hrest
    dsimp only at hrest
    rw [assign_assign] at hrest
    exact hrest

/-- A close that nobody interferes with is the close of the bridge. -/
theorem Reached.close (h : Reached c) (hk : c.stage k = .idle) (server : Handle) :
    Reached { c with bridge := (c.bridge.close server).2 } := by
  unfold Bridge.close
  cases hs : c.bridge.servers.close server with
  | error e => exact h
  | ok result =>
    obtain ⟨s, servers⟩ := result
    have hretire := h.step (.retire hk hs)
    have hlist := hretire.step (.list (assign_same ..))
    have hend := (hlist.closeListeners (assign_same ..)).step (.finish (assign_same ..))
    simp only [setStage, setNet, assign_assign] at hend
    rw [← hk, assign_self] at hend
    exact hend

end Whole

/-- Once no call is under way, a listener handle whose listener is open belongs to a server that is
live, and the server's node has the listener. -/
theorem served_of_reached {c : Calls} (hr : Reached c) (hidle : ∀ k, c.stage k = .idle)
    {h : Handle} {e : ListenerEntry} (he : c.bridge.listeners.find? h = some e)
    (ho : c.bridge.net.Open e.listener) : ∃ s, c.bridge.servers.find? e.server = some s ∧
      c.bridge.net.Runs s.node ∧ e.listener ∈ (c.bridge.net.node s.node).listeners := by
  obtain ⟨n, hruns, hlisted, -⟩ := hr.homed.owned.owner e.listener ho
  rcases (hr.homed.entries h e he).2 n hlisted with ⟨s, hs, rfl⟩ | ⟨k, hk⟩
  · exact ⟨s, hs, hruns, hlisted⟩
  · rw [hidle] at hk
    cases hk

/-- A server is closed between a listen's use of its node and the listen's last step. The listener
then has a handle for good, though it is closed and its server gone. -/
theorem orphan_of_overlap : ∃ c, Reached c ∧ (∀ k, c.stage k = .idle) ∧
    c.bridge.listenersOf ⟨2752513⟩ = [⟨2818049⟩] ∧
      c.bridge.servers.find? ⟨2752513⟩ = none ∧
      (c.bridge.listeners.find? ⟨2818049⟩).any fun e =>
        !decide (c.bridge.net.Open e.listener) := by
  have hnew := (Reached.start "bridge.ts.net" .standard true .root).step (.newServer rfl)
  have hfind := hnew.step (.find (k := 0) rfl
    (show HandleTable.get _ ⟨2752513⟩ = .ok ⟨0, {}⟩ from rfl))
  have hlisten := hfind.step (.listen (k := 0) rfl
    (show Network.listen 0 "tcp" ":80" none _ = _ from rfl))
  have hretire := hlisten.step (.retire (k := 1) rfl
    (show HandleTable.close _ ⟨2752513⟩ = _ from rfl))
  have hlist := hretire.step (.list (k := 1) rfl)
  have hfinish := hlist.step (.finish (k := 1) rfl)
  have hregister := hfinish.step (.register (k := 0) rfl)
  refine ⟨_, hregister, fun k => ?_, by decide +kernel, by rfl, by decide +kernel⟩
  by_cases h₀ : k = 0
  · exact if_pos h₀
  · by_cases h₁ : k = 1 <;> simp [setStage, setNet, assign_apply, h₀, h₁]

end Calls
end Handoff
