import Handoff.Proofs.Tailnet.Operations

namespace Handoff.Tailnet
variable {t t' : Tailnet} {l : ListenerId} {n : NodeId}

theorem count_close (s : Streams) (d : Descriptor) : (s.close d).count = s.count := rfl

theorem count_closeAll (s : Streams) (ds : List Descriptor) : (s.closeAll ds).count = s.count := by
  induction ds generalizing s with
  | nil => rfl
  | cons d ds ih => exact (ih (s.close d)).trans (count_close s d)

/-- A connection reaches the listener whose socket it is made to. -/
theorem connect_ok {backing : Endpoint} {arrival : StreamId → Arrival} {id : StreamId}
    (h : t.connect backing arrival = .ok (id, t')) :
    ∃ l, t.bound backing = some l ∧ id = t.streams.count ∧
      t' = { t.setListener l { t.listener l with
          backlog := (t.listener l).backlog ++ [arrival t.streams.count] } with
        streams := (t.streams.connect (t.loopbackAt t.ports) backing).2
        ports := t.ports + 1 } := by
  unfold connect at h
  split at h
  · cases h
  · split at h
    · cases h
    · rename_i l hl
      cases h
      exact ⟨l, hl, rfl, rfl⟩

/-- Only the backlog of one listener changes. -/
theorem same_setBacklog (t : Tailnet) (l : ListenerId) (backlog : List Arrival)
    (streams : Streams) (hs : t.streams.count ≤ streams.count) (ports : Nat) :
    Same t { t.setListener l { t.listener l with backlog } with streams, ports } := by
  refine ⟨?_, rfl, rfl, rfl, rfl, fun _ => rfl, fun _ => rfl, fun _ => rfl, Nat.le_refl _, hs⟩
  intro k
  change ∃ b, (t.setListener l { t.listener l with backlog }).listener k = _
  rw [listener_setListener]
  split
  · subst k
    exact ⟨backlog, rfl⟩
  · exact ⟨_, rfl⟩

/-- The connection that wakes an accept waits at a listener that is closed. -/
theorem calm_wake (hw : Wired t) (hc : ¬ t.Open l)
    (hb : t.bound (t.listener l).backing = some l) : Calm t (t.wake l) := by
  unfold wake
  split
  · exact .refl hw
  · rename_i id t₁ h
    obtain ⟨k, hk, rfl, rfl⟩ := connect_ok h
    obtain rfl := Option.some.inj (hb.symm.trans hk)
    have hs := same_setBacklog t l ((t.listener l).backlog ++ [.wakeUp t.streams.count])
      (t.streams.connect (t.loopbackAt t.ports) (t.listener l).backing).2 (Nat.le_succ _)
      (t.ports + 1)
    have hk := hs.kept hw
    refine Calm.trans ⟨hk, ?_⟩ (calm_withStreams hk.wired (Nat.le_refl _))
    intro m hm
    have hne : m ≠ l := by
      rintro rfl
      rw [Open, hs.closed] at hm
      exact hc hm
    exact assign_of_ne _ _ _ hne

section Shutting

theorem listener_shut (t : Tailnet) (l k : ListenerId) :
    ((t.markClosed l).unroute l).listener k =
      if k = l then { t.listener l with closed := true } else t.listener k := rfl

theorem listener_shut_self (t : Tailnet) (l : ListenerId) :
    ((t.markClosed l).unroute l).listener l = { t.listener l with closed := true } :=
  assign_same ..

theorem routes_shut (t : Tailnet) (l : ListenerId) (e : Endpoint) :
    ((t.markClosed l).unroute l).registry.routes e =
      if e ∈ (t.listener l).addresses then none else t.registry.routes e := by
  change (if e ∈ ((t.markClosed l).listener l).addresses then none else _) = _
  rw [show (t.markClosed l).listener l = { t.listener l with closed := true } from assign_same ..]
  rfl

/-- Whoever is open afterwards was open before, and is as it was. -/
theorem open_shut {k : ListenerId} (hk : ((t.markClosed l).unroute l).Open k) :
    k ≠ l ∧ ((t.markClosed l).unroute l).listener k = t.listener k ∧ t.Open k := by
  have hne : k ≠ l := by
    rintro rfl
    rw [Open, listener_shut_self] at hk
    cases hk
  have he : ((t.markClosed l).unroute l).listener k = t.listener k := by
    rw [listener_shut, if_neg hne]
  rw [Open, he] at hk
  exact ⟨hne, he, hk⟩

variable (hw : Wired t) (hl : t.Open l)
include hw hl

theorem wired_shut : Wired ((t.markClosed l).unroute l) where
  made := fun k hk => hw.made k (open_shut hk).2.2
  listed := hw.listed
  held := fun k hk => by
    obtain ⟨-, he, hk⟩ := open_shut hk
    rw [he]
    exact hw.held k hk
  bound := fun k hk => by
    rw [listener_shut] at hk ⊢
    split
    · subst k
      exact hw.bound l (hw.held l hl)
    · rename_i hkl
      rw [if_neg hkl] at hk
      exact hw.bound k hk
  routed := fun e r hr => by
    rw [routes_shut] at hr
    split at hr
    · cases hr
    · rename_i he
      obtain ⟨k, ⟨hk, hke⟩, hkr⟩ := hw.routed e r hr
      have hkl : k ≠ l := by
        rintro rfl
        exact he hke
      have hk' : ((t.markClosed l).unroute l).listener k = t.listener k := by
        rw [listener_shut, if_neg hkl]
      exact ⟨k, ⟨by rwa [Open, hk'], by rwa [hk']⟩, by rwa [hk']⟩

/-- Closing a listener takes its own routes away and no other's: two open listeners never share an
address. -/
theorem owned_shut (ho : Owned t) : Owned ((t.markClosed l).unroute l) where
  hosts := ho.hosts
  distinct := ho.distinct
  owner := fun k hk => by
    obtain ⟨-, he, hk⟩ := open_shut hk
    obtain ⟨m, hr, hm, ha⟩ := ho.owner k hk
    exact ⟨m, hr, hm, by rwa [he]⟩
  routed := by
    rintro hlast k e ⟨hk, hke⟩
    obtain ⟨hne, he, hk⟩ := open_shut hk
    rw [he] at hke ⊢
    have hreached := ho.routed hlast k e ⟨hk, hke⟩
    rw [routes_shut, if_neg]
    · exact hreached
    · intro hle
      have hroute := ho.routed hlast l e ⟨hl, hle⟩
      rw [hreached] at hroute
      have hback := congrArg Route.backing (Option.some.inj hroute)
      exact hne (hw.backing_inj hk hl hback)

theorem calm_shut : Calm t ((t.markClosed l).unroute l) where
  wired := wired_shut hw hl
  owned := owned_shut hw hl
  listeners := rfl
  nodes := Nat.le_refl _
  count := Nat.le_refl _
  lists := fun _ => List.Subset.refl _
  steady := fun _ hk => (open_shut hk).2.1

end Shutting

theorem calm_closeListener (hw : Wired t) (l : ListenerId) : Calm t (t.closeListener l) := by
  unfold closeListener
  split
  · exact .refl hw
  · rename_i hl
    have hl : t.Open l := (Bool.not_eq_true _).mp hl
    have hs := calm_shut hw hl
    refine hs.trans (calm_wake hs.wired ?_ ?_)
    · rw [Open, listener_shut_self]
      simp
    · rw [listener_shut_self]
      exact hw.bound l (hw.held l hl)

theorem closed_wake (t : Tailnet) (l k : ListenerId) :
    ((t.wake l).listener k).closed = (t.listener k).closed := by
  unfold wake
  split
  · rfl
  · rename_i id t₁ h
    obtain ⟨m, -, -, rfl⟩ := connect_ok h
    exact (same_setBacklog t m _ _ (Nat.le_succ _) _).closed k

theorem closed_closeListener (t : Tailnet) (l : ListenerId) : ¬ (t.closeListener l).Open l := by
  unfold closeListener
  split
  · rename_i hl
    rw [Open, hl]
    simp
  · rw [Open, closed_wake, listener_shut_self]
    simp

theorem closeListener_closed {l : ListenerId} (h : ¬ t.Open l) : t.closeListener l = t :=
  if_pos ((Bool.not_eq_false _).mp h)

/-- Nothing changes but the listener `l`, which is closed and becomes `x`, and every other socket
stays bound. -/
structure Fades (t t' : Tailnet) (l : ListenerId) (x : Listener) : Prop where
  past : ¬ t.Open l
  listener : ∀ k, t'.listener k = if k = l then x else t.listener k
  closed : x.closed = (t.listener l).closed
  here : 0 < x.holders → t'.bound x.backing = some l
  bound : ∀ k, k ≠ l → 0 < (t.listener k).holders →
    t'.bound (t.listener k).backing = t.bound (t.listener k).backing
  listeners : t'.listeners = t.listeners
  registry : t'.registry = t.registry
  node : t'.node = t.node
  nodes : t'.nodes = t.nodes
  count : t'.streams.count = t.streams.count

namespace Fades
variable {x : Listener} (h : Fades t t' l x)
include h

theorem open_iff {k : ListenerId} : t'.Open k ↔ t.Open k := by
  rw [Open, Open, h.listener]
  split
  · rw [h.closed, ‹k = l›]
  · exact Iff.rfl

theorem steady {k : ListenerId} (hk : t.Open k) : t'.listener k = t.listener k := by
  have hkl : k ≠ l := fun he => h.past (he ▸ hk)
  rw [h.listener, if_neg hkl]

theorem wired (hw : Wired t) : Wired t' where
  made := fun k hk => by
    rw [h.listeners]
    exact hw.made k (h.open_iff.mp hk)
  listed := fun m k hk => by
    rw [h.node] at hk
    rw [h.listeners]
    exact hw.listed m k hk
  held := fun k hk => by
    have hk := h.open_iff.mp hk
    rw [h.steady hk]
    exact hw.held k hk
  bound := fun k hk => by
    rw [h.listener] at hk ⊢
    split
    · subst k
      rw [if_pos rfl] at hk
      exact h.here hk
    · rename_i hkl
      rw [if_neg hkl] at hk
      exact (h.bound k hkl hk).trans (hw.bound k hk)
  routed := fun e r he => by
    rw [h.registry] at he
    obtain ⟨k, ⟨hk, hke⟩, hkr⟩ := hw.routed e r he
    have hold := h.steady hk
    exact ⟨k, ⟨h.open_iff.mpr hk, by rwa [hold]⟩, by rwa [hold]⟩

theorem owned (ho : Owned t) : Owned t' where
  hosts := by
    rw [h.node, h.registry]
    exact ho.hosts
  distinct := by
    rw [h.node]
    exact ho.distinct
  owner := fun k hk => by
    have hk := h.open_iff.mp hk
    obtain ⟨m, hm, hkm, ha⟩ := ho.owner k hk
    refine ⟨m, ?_, ?_, ?_⟩
    · rwa [Runs, h.node]
    · rwa [h.node]
    · rwa [h.steady hk, h.node]
  routed := by
    rintro hlast k e ⟨hk, he⟩
    have hk := h.open_iff.mp hk
    rw [h.steady hk] at he ⊢
    rw [h.registry] at hlast ⊢
    exact ho.routed hlast k e ⟨hk, he⟩

/-- What becomes of a closed listener touches nobody. -/
theorem calm (hw : Wired t) : Calm t t' where
  wired := h.wired hw
  owned := h.owned
  listeners := h.listeners
  nodes := Nat.le_of_eq h.nodes.symm
  count := Nat.le_of_eq h.count.symm
  lists := fun m => by
    rw [h.node]
    exact List.Subset.refl _
  steady := fun _ hk => h.steady (h.open_iff.mp hk)

end Fades

/-- Letting go of a closed listener unbinds no other's socket. -/
theorem calm_releaseListener (hw : Wired t) (hc : ¬ t.Open l) : Calm t (t.releaseListener l) := by
  unfold releaseListener
  dsimp only
  split
  · exact .refl hw
  · rename_i hh
    refine Fades.calm ⟨hc, fun _ => rfl, rfl, fun h => absurd h (Nat.lt_irrefl 0), ?_, rfl, rfl,
      rfl, rfl, count_closeAll ..⟩ hw
    intro k hkl hk
    refine assign_of_ne _ _ _ fun he => hkl ?_
    have hb := hw.bound k hk
    rw [he, hw.bound l (hh ▸ Nat.one_pos)] at hb
    exact (Option.some.inj hb).symm
  · rename_i m hm hh
    exact Fades.calm ⟨hc, fun _ => rfl, rfl, fun _ => hw.bound l (hh ▸ Nat.succ_pos m),
      fun _ _ _ => rfl, rfl, rfl, rfl, rfl, rfl⟩ hw

theorem calm_closeListeners (hw : Wired t) (ls : List ListenerId) :
    Calm t (ls.foldl closeListener t) ∧ ∀ l ∈ ls, ¬ (ls.foldl closeListener t).Open l := by
  induction ls generalizing t with
  | nil => exact ⟨.refl hw, fun _ h => absurd h (List.not_mem_nil)⟩
  | cons l ls ih =>
    have hc := calm_closeListener hw l
    obtain ⟨hcalm, hclosed⟩ := ih hc.wired
    refine ⟨hc.trans hcalm, ?_⟩
    intro k hk
    rcases List.mem_cons.mp hk with rfl | hk
    · exact fun h => closed_closeListener t k (hcalm.open h)
    · exact hclosed k hk

theorem calm_releaseListeners (hw : Wired t) {ls : List ListenerId} (hc : ∀ l ∈ ls, ¬ t.Open l) :
    Calm t (ls.foldl releaseListener t) := by
  induction ls generalizing t with
  | nil => exact .refl hw
  | cons l ls ih =>
    have h := calm_releaseListener hw (hc l (List.mem_cons_self ..))
    exact h.trans (ih h.wired fun k hk ho => hc k (List.mem_cons_of_mem _ hk) (h.open ho))

/-- A node that keeps its open listeners, and runs on if it has any, may change otherwise. -/
theorem calm_setLists (hw : Wired t) {x : Node} (hh : x.host = (t.node n).host)
    (hsub : x.listeners ⊆ (t.node n).listeners)
    (hc : ∀ l ∈ (t.node n).listeners, t.Open l →
      l ∈ x.listeners ∧ x.phase = (t.node n).phase) : Calm t (t.setNode n x) := by
  have hhost : ∀ m, ((t.setNode n x).node m).host = (t.node m).host := by
    intro m
    rw [node_setNode]
    split <;> simp_all
  have hlists : ∀ m, ((t.setNode n x).node m).listeners ⊆ (t.node m).listeners := by
    intro m
    rw [node_setNode]
    split
    · subst m
      exact hsub
    · exact List.Subset.refl _
  exact {
    wired := { hw with listed := fun m l hl => hw.listed m l (hlists m hl) }
    owned := fun ho => {
      hosts := fun m k hk => by
        rw [hhost] at hk
        exact ho.hosts m k hk
      distinct := fun a b k ha hb => by
        rw [hhost] at ha hb
        exact ho.distinct a b k ha hb
      owner := fun l hl => by
        obtain ⟨m, hr, hm, ha⟩ := ho.owner l hl
        have haddr : ((t.setNode n x).node m).addresses = (t.node m).addresses := by
          rw [Node.addresses, Node.addresses, hhost]
        refine ⟨m, ?_, ?_, by rwa [haddr]⟩
        · rw [Runs, node_setNode]
          split
          · subst m
            exact ((hc l hm hl).2).trans hr
          · exact hr
        · rw [node_setNode]
          split
          · subst m
            exact (hc l hm hl).1
          · exact hm
      routed := ho.routed }
    listeners := rfl
    nodes := Nat.le_refl _
    count := Nat.le_refl _
    lists := hlists
    steady := fun _ _ => rfl }

theorem calm_dropListeners (hw : Wired t) (hc : ∀ l ∈ (t.node n).listeners, ¬ t.Open l) :
    Calm t (t.dropListeners n) := by
  have hs := calm_setLists hw (x := { t.node n with listeners := [] }) rfl
    (List.nil_subset _) fun l hl ho => absurd ho (hc l hl)
  exact hs.trans (calm_releaseListeners hs.wired hc)

theorem calm_releaseNode (hw : Wired t) (hc : ∀ l ∈ (t.node n).listeners, ¬ t.Open l) :
    Calm t (t.releaseNode n) := by
  have hd := calm_dropListeners hw hc
  exact hd.trans (calm_setNode hd.wired rfl rfl rfl)

/-- Closed listeners leave the list of their node, and open ones stay. -/
theorem calm_pruneListeners (hw : Wired t) (n : NodeId) : Calm t (t.pruneListeners n) := by
  have hs := calm_setLists hw
    (x := { t.node n with
      listeners := (t.node n).listeners.filter fun l => !(t.listener l).closed })
    rfl (fun l hl => (List.mem_filter.mp hl).1) fun l hl ho => by
      refine ⟨?_, rfl⟩
      rw [List.mem_filter, ho]
      exact ⟨hl, rfl⟩
  refine hs.trans (calm_releaseListeners hs.wired ?_)
  intro l hl ho
  have := (List.mem_filter.mp hl).2
  rw [show (t.listener l).closed = false from ho] at this
  cases this

theorem node_releaseListener (t : Tailnet) (l : ListenerId) :
    (t.releaseListener l).node = t.node := by
  unfold releaseListener
  dsimp only
  split <;> rfl

theorem node_releaseListeners (t : Tailnet) (ls : List ListenerId) :
    (ls.foldl releaseListener t).node = t.node := by
  induction ls generalizing t with
  | nil => rfl
  | cons l ls ih => exact (ih _).trans (node_releaseListener t l)

theorem node_dropListeners (t : Tailnet) (n : NodeId) :
    (t.dropListeners n).node = (t.setNode n { t.node n with listeners := [] }).node :=
  node_releaseListeners _ _

theorem node_closeListener (t : Tailnet) (l : ListenerId) : (t.closeListener l).node = t.node := by
  unfold closeListener
  split
  · rfl
  · unfold wake
    split
    · rfl
    · rename_i id u h
      obtain ⟨k, -, -, rfl⟩ := connect_ok h
      rfl

theorem node_closeListeners (t : Tailnet) (ls : List ListenerId) :
    (ls.foldl closeListener t).node = t.node := by
  induction ls generalizing t with
  | nil => rfl
  | cons l ls ih => exact (ih _).trans (node_closeListener t l)

section Commuting
variable (x : Node)

theorem connect_setNode (t : Tailnet) (n : NodeId) (backing : Endpoint)
    (arrival : StreamId → Arrival) : (t.setNode n x).connect backing arrival =
      (t.connect backing arrival).map fun p => (p.1, p.2.setNode n x) := by
  unfold connect
  rw [show (t.setNode n x).loopbackUp = t.loopbackUp from rfl,
    show (t.setNode n x).bound backing = t.bound backing from rfl]
  cases t.loopbackUp with
  | false => rfl
  | true => cases t.bound backing <;> rfl

/-- Closing a listener looks at no node. -/
theorem closeListener_setNode (t : Tailnet) (n : NodeId) (l : ListenerId) :
    (t.setNode n x).closeListener l = (t.closeListener l).setNode n x := by
  unfold closeListener
  by_cases hl : (t.listener l).closed = true
  · rw [if_pos hl]
    exact if_pos hl
  · rw [if_neg hl]
    refine (if_neg hl).trans ?_
    change (((t.markClosed l).unroute l).setNode n x).wake l = _
    generalize (t.markClosed l).unroute l = u
    unfold wake
    rw [connect_setNode, show (u.setNode n x).listener = u.listener from rfl]
    cases u.connect (u.listener l).backing .wakeUp <;> rfl

theorem closeListeners_setNode (t : Tailnet) (n : NodeId) (ls : List ListenerId) :
    ls.foldl closeListener (t.setNode n x) = (ls.foldl closeListener t).setNode n x := by
  induction ls generalizing t with
  | nil => rfl
  | cons l ls ih => rw [List.foldl_cons, closeListener_setNode, ih, List.foldl_cons]

end Commuting

/-- Once a node has ended, and its listeners with it, forgetting its addresses takes nobody's
route. -/
theorem calm_forget (hw : Wired t) (hr : ¬ t.Runs n) (hostname : String) :
    Calm t { t with registry := t.registry.forget (t.node n).addresses hostname } := by
  have hroutes : ∀ e, (t.registry.forget (t.node n).addresses hostname).routes e =
      if e.ip ∈ (t.node n).addresses then none else t.registry.routes e := fun _ => rfl
  exact {
    wired := { hw with
      routed := fun e r he => by
        rw [hroutes] at he
        split at he
        · cases he
        · exact hw.routed e r he }
    owned := fun ho => { ho with
      routed := fun hlast l e hl => by
        refine (hroutes e).trans ?_
        rw [if_neg, ho.routed hlast l e hl]
        intro hip
        obtain ⟨m, hm, -, ha⟩ := ho.owner l hl.1
        obtain rfl := ho.address_unique hlast (ha e hl.2) hip
        exact hr hm }
    listeners := rfl
    nodes := Nat.le_refl _
    count := Nat.le_refl _
    lists := fun _ => List.Subset.refl _
    steady := fun _ _ => rfl }

theorem calm_close (hw : Wired t) (n : NodeId) : Calm t (t.close n).2 := by
  unfold close
  dsimp only
  split
  · exact .refl hw
  · obtain ⟨hcalm, hclosed⟩ := calm_closeListeners hw (t.node n).listeners
    have hnode := node_closeListeners t (t.node n).listeners
    rw [closeListeners_setNode]
    generalize (t.node n).listeners.foldl closeListener t = u at hcalm hclosed hnode
    rw [← hnode] at hclosed ⊢
    let v : Tailnet :=
      u.setNode n { u.node n with phase := .closed, online := false, loopback := none }
    have hv : v.node n = { u.node n with phase := .closed, online := false, loopback := none } :=
      assign_same ..
    have h₁ : Calm u v := calm_setLists hcalm.wired rfl (List.Subset.refl _)
      fun l hl ho => absurd ho (hclosed l hl)
    have h₂ : Calm v (v.dropListeners n) := calm_dropListeners h₁.wired (by rwa [hv])
    have hend : (v.dropListeners n).node n = { v.node n with listeners := [] } := by
      rw [node_dropListeners]
      exact assign_same ..
    have h₃ := calm_forget (n := n) h₂.wired (by rw [Runs, hend, hv]; simp) (u.node n).hostname
    rw [hend, hv] at h₃
    exact (((hcalm.trans h₁).trans h₂).trans h₃).trans (calm_log h₃.wired n _)

end Handoff.Tailnet
