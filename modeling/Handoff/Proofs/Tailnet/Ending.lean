import Handoff.Proofs.Tailnet.Opening
import Handoff.Tailnet.Network

namespace Handoff.Tailnet
variable {t : Tailnet} {n m : NodeId}

section Listening
variable {plan : ListenPlan}

theorem node_start_ne (hm : m ≠ n) : (t.start n).2.node m = t.node m := by
  rcases start_cases t n with ⟨-, h⟩ | ⟨f, files, h⟩ | ⟨-, files, h⟩
  · rw [h]
  · rw [h]
  · rw [h, join]
    dsimp only
    rw [node_log]
    exact assign_of_ne _ _ _ hm

theorem node_openListener_ne (hm : m ≠ n) : (t.openListener n plan).2.node m = t.node m := by
  rw [openListener, node_install, if_neg hm, pruneListeners, node_releaseListeners]
  exact assign_of_ne _ _ _ hm

theorem runs_openListener (hr : t.Runs n) : (t.openListener n plan).2.Runs n := by
  obtain ⟨_, hnode⟩ := node_pruneListeners t n
  rw [openListener, runs_install, Runs, hnode]
  exact hr

end Listening

/-- A listen changes no node but its own, and that only to let it run. -/
theorem node_listen_ne (hm : m ≠ n) (network address : String) (funnel : Option FunnelMode) :
    (t.listen n network address funnel).2.node m = t.node m := by
  have hs := node_start_ne (t := t) hm
  unfold listen
  split
  · rfl
  · revert hs
    generalize t.start n = r
    obtain ⟨r, t₁⟩ := r
    intro hs
    cases r with
    | error f => exact hs
    | ok =>
      dsimp only
      split
      · exact hs
      · rw [node_log, node_openListener_ne hm]
        exact hs

theorem node_listen_self (t : Tailnet) (n : NodeId) (network address : String)
    (funnel : Option FunnelMode) : (t.listen n network address funnel).2.node n = t.node n ∨
      (t.listen n network address funnel).2.Runs n := by
  have herr : ∀ f, (t.start n).1 = .error f → (t.start n).2.node n = t.node n := by
    rcases start_cases t n with ⟨-, h⟩ | ⟨_, _, h⟩ | ⟨-, _, h⟩ <;> rw [h] <;>
      first | exact fun _ _ => rfl | nofun
  have hok := runs_start (t := t) (n := n)
  unfold listen
  split
  · exact .inl rfl
  · revert herr hok
    generalize t.start n = r
    obtain ⟨r, t₁⟩ := r
    intro herr hok
    cases r with
    | error f => exact .inl (herr f rfl)
    | ok =>
      dsimp only
      split
      · exact .inr (hok rfl)
      · refine .inr ?_
        rw [Runs, node_log]
        exact runs_openListener (hok rfl)

/-- A node that has ended listens no more. -/
theorem listen_closed (h : (t.node n).phase = .closed) (network address : String)
    (funnel : Option FunnelMode) : ∃ f, t.listen n network address funnel = (.error f, t) := by
  unfold listen start
  rw [h]
  dsimp only
  split <;> exact ⟨_, rfl⟩

theorem listen_ok {t' : Tailnet} {l : ListenerId} {network address : String}
    {funnel : Option FunnelMode} (h : Network.listen n network address funnel t = (.ok l, t')) :
    (t.listen n network address funnel).1 = .ok l ∧
      (t.listen n network address funnel).2 = t' := by
  change (t.listen n network address funnel).map worded id = _ at h
  revert h
  generalize t.listen n network address funnel = r
  obtain ⟨r, t₁⟩ := r
  intro h
  cases r <;> cases h
  exact ⟨rfl, rfl⟩

theorem listen_error {t' : Tailnet} (hw : Wired t) {f : Failure} {network address : String}
    {funnel : Option FunnelMode} (h : Network.listen n network address funnel t = (.error f, t')) :
    Calm t (t.listen n network address funnel).2 ∧
      (t.listen n network address funnel).2 = t' := by
  have hcases := listen_cases hw n network address funnel
  change (t.listen n network address funnel).map worded id = _ at h
  revert h hcases
  generalize t.listen n network address funnel = r
  obtain ⟨r, t₁⟩ := r
  intro hcases h
  cases r <;> cases h
  rcases hcases with ⟨_, -, hc, -⟩ | ⟨_, hl, -⟩
  · exact ⟨hc, rfl⟩
  · cases hl

def Emptied (t : Tailnet) : Prop :=
  ∀ n, (t.node n).phase = .closed → (t.node n).listeners = []

structure Ends (t t' : Tailnet) : Prop where
  closed : ∀ n, (t.node n).phase = .closed → (t'.node n).phase = .closed
  emptied : t.Emptied → t'.Emptied

theorem Ends.of_node {t' : Tailnet} (h : t'.node = t.node) : Ends t t' :=
  ⟨fun n hn => by rwa [h], fun he n hn => by rw [h] at hn ⊢; exact he n hn⟩

theorem ends_listen (t : Tailnet) (n : NodeId) (network address : String)
    (funnel : Option FunnelMode) : Ends t (t.listen n network address funnel).2 := by
  have hnode : ∀ m, (t.listen n network address funnel).2.node m = t.node m ∨
      (t.listen n network address funnel).2.Runs m ∧ m = n := by
    intro m
    by_cases hm : m = n
    · subst m
      exact (node_listen_self t n network address funnel).imp_right (⟨·, rfl⟩)
    · exact .inl (node_listen_ne hm network address funnel)
  refine ⟨fun m hc => ?_, fun he m hc => ?_⟩
  · rcases hnode m with h | ⟨-, rfl⟩
    · rwa [h]
    · obtain ⟨f, hf⟩ := listen_closed hc network address funnel
      rwa [hf]
  · rcases hnode m with h | ⟨hr, -⟩
    · rw [h] at hc ⊢
      exact he m hc
    · rw [hr] at hc
      cases hc

theorem node_close (t : Tailnet) (n m : NodeId) : (t.close n).2.node m =
    if m = n ∧ (t.node n).phase ≠ .closed then
      { t.node n with phase := .closed, online := false, loopback := none, listeners := [] }
    else t.node m := by
  unfold close
  dsimp only
  split
  · rename_i hc
    exact (if_neg fun h => h.2 hc).symm
  · rename_i hc
    rw [node_log, closeListeners_setNode]
    change (dropListeners _ n).node m = _
    rw [node_dropListeners]
    by_cases hm : m = n
    · rw [if_pos ⟨hm, hc⟩, node_setNode, if_pos hm, node_setNode, if_pos rfl]
    · rw [if_neg fun h => hm h.1, node_setNode, if_neg hm, node_setNode, if_neg hm,
        node_closeListeners]

theorem node_close_ne (hm : m ≠ n) : (t.close n).2.node m = t.node m := by
  rw [node_close, if_neg fun h => hm h.1]

theorem phase_close (t : Tailnet) (n : NodeId) : ((t.close n).2.node n).phase = .closed := by
  rw [node_close]
  split
  · rfl
  · rename_i hc
    exact Decidable.not_not.mp fun h => hc ⟨rfl, h⟩

theorem listeners_close (he : t.Emptied) (n : NodeId) : ((t.close n).2.node n).listeners = [] := by
  rw [node_close]
  split
  · rfl
  · rename_i hc
    exact he n (Decidable.not_not.mp fun h => hc ⟨rfl, h⟩)

theorem node_releaseNode (t : Tailnet) (n m : NodeId) : (t.releaseNode n).node m =
    if m = n then { t.node n with listeners := [], log := none, loopback := none }
    else t.node m := by
  rw [releaseNode, node_setNode, node_dropListeners]
  split
  · rw [node_setNode, if_pos rfl]
  · rw [node_setNode, if_neg ‹_›]

/-- A node that is closed and let go of has ended. -/
theorem ends_close (t : Tailnet) (n : NodeId) : Ends t ((t.close n).2.releaseNode n) := by
  refine ⟨fun m hc => ?_, fun he m hc => ?_⟩
  · rw [node_releaseNode]
    split
    · exact phase_close t n
    · rwa [node_close_ne ‹_›]
  · rw [node_releaseNode] at hc ⊢
    split
    · rfl
    · rename_i hm
      rw [if_neg hm, node_close_ne hm] at hc
      rw [node_close_ne hm]
      exact he m hc

end Handoff.Tailnet
