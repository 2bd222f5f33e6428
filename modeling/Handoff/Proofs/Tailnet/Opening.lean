import Handoff.Proofs.Tailnet.Closing

namespace Handoff.Tailnet
variable {t t' : Tailnet} {l : ListenerId} {n : NodeId} {network address : String}

theorem unbound_some {m k j : Nat} (h : t.unbound m k = some j) :
    t.bound (t.loopbackAt j) = none := by
  induction m generalizing k with
  | zero => cases h
  | succ m ih =>
    unfold unbound at h
    split at h
    · rename_i hb
      cases h
      exact Option.isNone_iff_eq_none.mp hb
    · exact ih h

/-- A node listens only at addresses of its own. -/
theorem ownAddresses_ok {node : Node} {host : List Char} {ips : List Address}
    (h : ownAddresses node network address host = .ok ips) : ips ⊆ node.addresses := by
  unfold ownAddresses at h
  split at h
  · cases h
    exact List.Subset.refl _
  · dsimp only at h
    split at h
    · split at h
      · rename_i ip _ hip
        cases h
        intro x hx
        rwa [List.mem_singleton.mp hx]
      · cases h
    · split at h
      · split at h
        · rename_i ip rest hips
          cases h
          intro x hx
          rw [List.mem_singleton.mp hx, hips]
          exact List.mem_cons_self ..
        · cases h
      · cases h

structure Planned (t : Tailnet) (n : NodeId) (plan : ListenPlan) : Prop where
  free : t.bound (t.loopbackAt plan.socket) = none
  unrouted : ∀ e ∈ plan.addresses, t.registry.routes e = none
  own : ∀ e ∈ plan.addresses, e.ip ∈ (t.node n).addresses

theorem planListen_ok {funnel : Option FunnelMode} {plan : ListenPlan}
    (h : t.planListen n network address funnel = .ok plan) : Planned t n plan := by
  unfold planListen at h
  split at h
  · cases h
  · split at h
    · cases h
    · split at h
      · cases h
      · rename_i ips hips
        split at h
        · cases h
        · rename_i k hk
          dsimp only at h
          split at h
          · cases h
          · rename_i hfind
            cases h
            refine ⟨unbound_some hk, ?_, ?_⟩
            · intro e he
              have := List.find?_eq_none.mp hfind e he
              simpa using this
            · intro e he
              obtain ⟨ip, hip, rfl⟩ := List.mem_map.mp he
              exact ownAddresses_ok hips hip

/-- Letting go of listeners binds no socket and leaves the routes alone. -/
theorem releaseListeners_frame (t : Tailnet) (ls : List ListenerId) :
    (ls.foldl releaseListener t).registry = t.registry ∧
      (ls.foldl releaseListener t).supply = t.supply ∧
      ∀ e, t.bound e = none → (ls.foldl releaseListener t).bound e = none := by
  induction ls generalizing t with
  | nil => exact ⟨rfl, rfl, fun _ h => h⟩
  | cons l ls ih =>
    have hstep : (t.releaseListener l).registry = t.registry ∧
        (t.releaseListener l).supply = t.supply ∧
        ∀ e, t.bound e = none → (t.releaseListener l).bound e = none := by
      unfold releaseListener
      dsimp only
      split
      · exact ⟨rfl, rfl, fun _ h => h⟩
      · refine ⟨rfl, rfl, fun e h => ?_⟩
        change assign t.bound (t.listener l).backing none e = none
        rw [assign_apply]
        split
        · rfl
        · exact h
      · exact ⟨rfl, rfl, fun _ h => h⟩
    obtain ⟨hregistry, hsupply, hbound⟩ := hstep
    obtain ⟨hr, hs, hb⟩ := ih (t.releaseListener l)
    exact ⟨hr.trans hregistry, hs.trans hsupply, fun e h => hb e (hbound e h)⟩

theorem loopbackAt_of_supply (h : t'.supply = t.supply) (k : Nat) :
    t'.loopbackAt k = t.loopbackAt k := by
  rw [loopbackAt, h, loopbackAt]

theorem supply_pruneListeners (t : Tailnet) (n : NodeId) :
    (t.pruneListeners n).supply = t.supply := by
  let opened := (t.node n).listeners.filter fun l => !(t.listener l).closed
  exact (releaseListeners_frame (t.setNode n { t.node n with listeners := opened }) _).2.1

theorem node_pruneListeners (t : Tailnet) (n : NodeId) :
    ∃ listeners, (t.pruneListeners n).node n = { t.node n with listeners } := by
  refine ⟨(t.node n).listeners.filter fun l => !(t.listener l).closed, ?_⟩
  unfold pruneListeners
  dsimp only
  rw [node_releaseListeners]
  exact assign_same ..

/-- Pruning changes nothing that a plan was checked for. -/
theorem Planned.prune {plan : ListenPlan} (h : Planned t n plan) :
    Planned (t.pruneListeners n) n plan := by
  obtain ⟨listeners, hnode⟩ := node_pruneListeners t n
  obtain ⟨hr, -, hb⟩ := releaseListeners_frame
    (t.setNode n { t.node n with
      listeners := (t.node n).listeners.filter fun l => !(t.listener l).closed })
    ((t.node n).listeners.filter fun l => (t.listener l).closed)
  refine ⟨?_, ?_, ?_⟩
  · rw [loopbackAt_of_supply (supply_pruneListeners t n)]
    exact hb _ h.free
  · intro e he
    have := h.unrouted e he
    rwa [show (t.pruneListeners n).registry = t.registry from hr]
  · rw [hnode]
    exact h.own

structure Opens (t t' : Tailnet) (n : NodeId) (l : ListenerId) : Prop where
  wired : Wired t'
  owned : Owned t → Owned t'
  made : l = t.listeners
  listeners : t'.listeners = t.listeners + 1
  isOpen : t'.Open l
  backlog : (t'.listener l).backlog = []
  nodes : t.nodes ≤ t'.nodes
  count : t.streams.count ≤ t'.streams.count
  steady : ∀ k, k ≠ l → t'.Open k → t'.listener k = t.listener k
  lists : ∀ m, ∀ k ∈ (t'.node m).listeners, k ∈ (t.node m).listeners ∨ m = n ∧ k = l

theorem Opens.ne_of_lt (h : Opens t t' n l) {k : ListenerId} (hk : k < t.listeners) : k ≠ l := by
  rw [h.made]
  exact Nat.ne_of_lt hk

theorem Opens.open_of_ne (h : Opens t t' n l) {k : ListenerId} (hk : k ≠ l) (ho : t'.Open k) :
    t.Open k := by
  rwa [Open, h.steady k hk ho] at ho

theorem Opens.before {t₁ t₂ : Tailnet} (hc : Calm t t₁) (h : Opens t₁ t₂ n l) : Opens t t₂ n l where
  wired := h.wired
  owned := h.owned ∘ hc.owned
  made := h.made.trans hc.listeners
  listeners := by rw [h.listeners, hc.listeners]
  isOpen := h.isOpen
  backlog := h.backlog
  nodes := Nat.le_trans hc.nodes h.nodes
  count := Nat.le_trans hc.count h.count
  steady := fun k hk ho => (h.steady k hk ho).trans (hc.steady k (h.open_of_ne hk ho))
  lists := fun m k hk => (h.lists m k hk).imp_left fun hm => hc.lists m hm

theorem Opens.after {t₁ t₂ : Tailnet} (h : Opens t t₁ n l) (hc : Calm t₁ t₂) (ho : t₂.Open l) :
    Opens t t₂ n l where
  wired := hc.wired
  owned := hc.owned ∘ h.owned
  made := h.made
  listeners := hc.listeners.trans h.listeners
  isOpen := ho
  backlog := by rw [hc.steady l ho, h.backlog]
  nodes := Nat.le_trans h.nodes hc.nodes
  count := Nat.le_trans h.count hc.count
  steady := fun k hk ho => (hc.steady k ho).trans (h.steady k hk (hc.open ho))
  lists := fun m k hk => h.lists m k (hc.lists m hk)

def ListenPlan.listener (plan : ListenPlan) (t : Tailnet) : Listener :=
  { backing := t.loopbackAt plan.socket
    addresses := plan.addresses
    funnel := plan.funnel
    holders := 2 }

section Installing
variable {plan : ListenPlan}

theorem listener_install (k : ListenerId) : (t.install n plan).2.listener k =
    if k = t.listeners then plan.listener t else t.listener k := rfl

theorem node_install (m : NodeId) : (t.install n plan).2.node m = if m = n then
    { t.node n with listeners := (t.node n).listeners ++ [t.listeners] } else t.node m := rfl

theorem bound_install : (t.install n plan).2.bound =
    assign t.bound (t.loopbackAt plan.socket) (some t.listeners) := rfl

theorem routes_install (e : Endpoint) : (t.install n plan).2.registry.routes e =
    if e ∈ plan.addresses then some (plan.listener t).route else t.registry.routes e := rfl

theorem new_install : (t.install n plan).2.listener t.listeners = plan.listener t := by
  rw [listener_install, if_pos rfl]

theorem old_install {k : ListenerId} (hk : k ≠ t.listeners) :
    (t.install n plan).2.listener k = t.listener k := by
  rw [listener_install, if_neg hk]

theorem open_install {k : ListenerId} (hk : k ≠ t.listeners) :
    (t.install n plan).2.Open k ↔ t.Open k := by
  rw [Open, old_install hk, Open]

theorem mem_install {m : NodeId} {k : ListenerId} :
    k ∈ ((t.install n plan).2.node m).listeners ↔
      k ∈ (t.node m).listeners ∨ m = n ∧ k = t.listeners := by
  rw [node_install]
  split
  · rename_i hm
    simp [hm]
  · rename_i hm
    simp [hm]

theorem host_install (m : NodeId) : ((t.install n plan).2.node m).host = (t.node m).host := by
  rw [node_install]
  split
  · rw [‹m = n›]
  · rfl

theorem addresses_install (m : NodeId) :
    ((t.install n plan).2.node m).addresses = (t.node m).addresses := by
  rw [Node.addresses, Node.addresses, host_install]

theorem runs_install {m : NodeId} : (t.install n plan).2.Runs m ↔ t.Runs m := by
  rw [Runs, node_install, Runs]
  split
  · rw [‹m = n›]
  · rfl

theorem wired_install (hw : Wired t) (hp : Planned t n plan) : Wired (t.install n plan).2 where
  made := fun k hk => by
    change k < t.listeners + 1
    by_cases hkl : k = t.listeners
    · exact hkl ▸ Nat.lt_succ_self _
    · exact Nat.lt_succ_of_lt (hw.made k ((open_install hkl).mp hk))
  listed := fun m k hk => by
    change k < t.listeners + 1
    rcases mem_install.mp hk with hk | ⟨-, rfl⟩
    · exact Nat.lt_succ_of_lt (hw.listed m k hk)
    · exact Nat.lt_succ_self _
  held := fun k hk => by
    by_cases hkl : k = t.listeners
    · rw [hkl, new_install]
      exact Nat.two_pos
    · rw [old_install hkl]
      exact hw.held k ((open_install hkl).mp hk)
  bound := fun k hk => by
    rw [bound_install]
    by_cases hkl : k = t.listeners
    · rw [hkl, new_install]
      exact assign_same ..
    · rw [old_install hkl] at hk ⊢
      have hb := hw.bound k hk
      refine (assign_of_ne _ _ _ fun he => ?_).trans hb
      rw [he, hp.free] at hb
      cases hb
  routed := fun e r he => by
    rw [routes_install] at he
    split at he
    · refine ⟨t.listeners, ⟨?_, ?_⟩, ?_⟩
      · rw [Open, new_install]
        rfl
      · rwa [new_install]
      · rw [new_install]
        exact (Option.some.inj he).symm
    · obtain ⟨k, ⟨hk, hke⟩, hkr⟩ := hw.routed e r he
      have hkl : k ≠ t.listeners := Nat.ne_of_lt (hw.made k hk)
      refine ⟨k, ⟨(open_install hkl).mpr hk, ?_⟩, ?_⟩
      · rwa [old_install hkl]
      · rwa [old_install hkl]

theorem owned_install (hr : t.Runs n) (hp : Planned t n plan) (ho : Owned t) :
    Owned (t.install n plan).2 where
  hosts := fun m k hk => ho.hosts m k (by rwa [host_install] at hk)
  distinct := fun a b k ha hb => by
    rw [host_install] at ha hb
    exact ho.distinct a b k ha hb
  owner := fun k hk => by
    by_cases hkl : k = t.listeners
    · subst hkl
      refine ⟨n, runs_install.mpr hr, mem_install.mpr (.inr ⟨rfl, rfl⟩), fun e he => ?_⟩
      rw [new_install] at he
      rw [addresses_install]
      exact hp.own e he
    · obtain ⟨m, hm, hkm, ha⟩ := ho.owner k ((open_install hkl).mp hk)
      refine ⟨m, runs_install.mpr hm, mem_install.mpr (.inl hkm), fun e he => ?_⟩
      rw [old_install hkl] at he
      rw [addresses_install]
      exact ha e he
  routed := fun hlast k e hs => by
    obtain ⟨hk, he⟩ := hs
    rw [routes_install]
    by_cases hkl : k = t.listeners
    · rw [hkl, new_install] at he
      rw [hkl, new_install]
      exact if_pos he
    · rw [old_install hkl] at he ⊢
      have hreached := ho.routed hlast k e ⟨(open_install hkl).mp hk, he⟩
      -- an address of the new listener had no route before
      rw [if_neg, hreached]
      intro hmem
      rw [hp.unrouted e hmem] at hreached
      cases hreached

theorem opens_install (hw : Wired t) (hr : t.Runs n) (hp : Planned t n plan) :
    Opens t (t.install n plan).2 n (t.install n plan).1 where
  wired := wired_install hw hp
  owned := owned_install hr hp
  made := rfl
  listeners := rfl
  isOpen := congrArg Listener.closed new_install
  backlog := congrArg Listener.backlog new_install
  nodes := Nat.le_refl _
  count := Nat.le_refl _
  steady := fun _ hk _ => old_install hk
  lists := fun _ _ => mem_install.mp

end Installing

theorem open_log {line : String} (h : t.Open l) : (t.log n line).Open l := by
  rw [Open, show (t.log n line).listener = t.listener from listener_log ..]
  exact h

/-- A listen fails and leaves every route as it is, or it opens one listener. -/
theorem listen_cases (hw : Wired t) (n : NodeId) (network address : String)
    (funnel : Option FunnelMode) :
    (∃ f, (t.listen n network address funnel).1 = .error f ∧
      Calm t (t.listen n network address funnel).2 ∧
      (t.listen n network address funnel).2.registry.routes = t.registry.routes) ∨
    ∃ l, (t.listen n network address funnel).1 = .ok l ∧
      Opens t (t.listen n network address funnel).2 n l := by
  have hs := calm_start hw n
  have hroutes := routes_start t n
  have hruns := runs_start (t := t) (n := n)
  unfold listen
  split
  · exact .inl ⟨_, rfl, .refl hw, rfl⟩
  · revert hs hroutes hruns
    generalize t.start n = r
    obtain ⟨r, t₁⟩ := r
    intro hs hroutes hruns
    cases r with
    | error f => exact .inl ⟨f, rfl, hs, hroutes⟩
    | ok =>
      dsimp only
      split
      · rename_i f hf
        exact .inl ⟨f, rfl, hs, hroutes⟩
      · rename_i plan hplan
        have hp := planListen_ok hplan
        have hpr := calm_pruneListeners hs.wired n
        have hrun : (t₁.pruneListeners n).Runs n := by
          obtain ⟨_, hnode⟩ := node_pruneListeners t₁ n
          rw [Runs, hnode]
          exact hruns rfl
        have ho := opens_install hpr.wired hrun hp.prune
        exact .inr ⟨_, rfl, (ho.before (hs.trans hpr)).after (calm_log ho.wired n _)
          (open_log ho.isOpen)⟩

end Handoff.Tailnet
