import Handoff.Proofs.Tailnet.Ending
import Handoff.Proofs.Traffic.Closing

namespace Handoff

namespace Tailnet
variable {S : ListenerId → Prop} {ips : List Address} {t t' t'' : Tailnet} {l : ListenerId}
  {n : NodeId}

/-- Nothing has changed but connections, listeners of `S`, and routes to the addresses `ips`. -/
structure Spares (S : ListenerId → Prop) (ips : List Address) (t t' : Tailnet) : Prop where
  node : t'.node = t.node
  listener : ∀ l, ¬ S l → t'.listener l = t.listener l
  registry : t'.registry = { t.registry with routes := t'.registry.routes }
  routes : ∀ e, e.ip ∉ ips → t'.registry.routes e = t.registry.routes e

def Inside (S : ListenerId → Prop) (ips : List Address) (t : Tailnet) : Prop :=
  ∀ l, S l → t.Open l → ∀ e ∈ (t.listener l).addresses, e.ip ∈ ips

theorem Inside.calm (h : Inside S ips t) (hc : Calm t t') : Inside S ips t' := by
  intro l hl ho
  rw [hc.steady l ho]
  exact h l hl (hc.open ho)

theorem Spares.refl (S : ListenerId → Prop) (ips : List Address) (t : Tailnet) : Spares S ips t t :=
  ⟨rfl, fun _ _ => rfl, rfl, fun _ _ => rfl⟩

theorem Spares.trans (h : Spares S ips t t') (h' : Spares S ips t' t'') : Spares S ips t t'' where
  node := h'.node.trans h.node
  listener := fun l hl => (h'.listener l hl).trans (h.listener l hl)
  registry := by rw [h'.registry, h.registry]
  routes := fun e he => (h'.routes e he).trans (h.routes e he)

/-- Where the registry stays as it is. -/
theorem Spares.of_listeners (hn : t'.node = t.node) (hr : t'.registry = t.registry)
    (hl : ∀ l, ¬ S l → t'.listener l = t.listener l) : Spares S ips t t' :=
  ⟨hn, hl, by rw [hr], fun _ _ => by rw [hr]⟩

theorem setListener_ne {x : Listener} (hl : S l) {k : ListenerId} (hk : ¬ S k) :
    (t.setListener l x).listener k = t.listener k := by
  rw [listener_setListener, if_neg]
  rintro rfl
  exact hk hl

theorem spares_wake (hb : t.bound (t.listener l).backing = some l) (hl : S l) :
    Spares S ips t (t.wake l) := by
  unfold wake
  split
  · exact .refl S ips t
  · rename_i id u hc
    obtain ⟨k, hk, rfl, rfl⟩ := connect_ok hc
    obtain rfl := Option.some.inj (hb.symm.trans hk)
    exact .of_listeners rfl rfl fun m hm => setListener_ne hl hm

theorem closeListeners_closed {ls : List ListenerId} (h : ∀ l ∈ ls, ¬ t.Open l) :
    ls.foldl closeListener t = t := by
  induction ls with
  | nil => rfl
  | cons l ls ih =>
    rw [List.foldl_cons, closeListener_closed (h l (List.mem_cons_self ..))]
    exact ih fun k hk => h k (List.mem_cons_of_mem _ hk)

/-- The routes that go are those to the listener's own addresses. -/
theorem spares_closeListener (hw : Wired t) (hin : Inside S ips t) (hl : S l) :
    Spares S ips t (t.closeListener l) := by
  by_cases ho : t.Open l
  · have hshut : Spares S ips t ((t.markClosed l).unroute l) := by
      refine ⟨rfl, fun k hk => setListener_ne hl hk, rfl, fun e he => ?_⟩
      rw [routes_shut, if_neg]
      intro hmem
      exact he (hin l hl ho e hmem)
    have hbound : ((t.markClosed l).unroute l).bound
        (((t.markClosed l).unroute l).listener l).backing = some l := by
      rw [listener_shut_self]
      exact hw.bound l (hw.held l ho)
    unfold closeListener
    rw [if_neg ((Bool.not_eq_true _).mpr ho)]
    exact hshut.trans (spares_wake hbound hl)
  · rw [closeListener_closed ho]
    exact .refl S ips t

theorem spares_releaseListener (hl : S l) : Spares S ips t (t.releaseListener l) := by
  unfold releaseListener
  dsimp only
  split
  · exact .refl S ips t
  · exact .of_listeners rfl rfl fun k hk => setListener_ne hl hk
  · exact .of_listeners rfl rfl fun k hk => setListener_ne hl hk

theorem spares_releaseListeners {ls : List ListenerId} (hl : ∀ l ∈ ls, S l) :
    Spares S ips t (ls.foldl releaseListener t) := by
  induction ls generalizing t with
  | nil => exact .refl S ips t
  | cons l ls ih =>
    have hone : Spares S ips t (t.releaseListener l) :=
      spares_releaseListener (hl l (List.mem_cons_self ..))
    exact hone.trans (ih fun k hk => hl k (List.mem_cons_of_mem _ hk))

/-- With no address to spare nothing else is left of the registry to change. -/
theorem Spares.registry_eq (h : Spares S [] t t') : t'.registry = t.registry := by
  have hroutes : t'.registry.routes = t.registry.routes :=
    funext fun e => h.routes e List.not_mem_nil
  rw [h.registry, hroutes]

section Ending
variable (hS : ∀ l ∈ (t.node n).listeners, S l)
include hS

theorem listener_dropListeners (hl : ¬ S l) :
    (t.dropListeners n).listener l = t.listener l := by
  have hspares : Spares S [] (t.setNode n { t.node n with listeners := [] })
      (t.dropListeners n) := spares_releaseListeners hS
  exact hspares.listener l hl

omit hS in
theorem registry_dropListeners (t : Tailnet) (n : NodeId) :
    (t.dropListeners n).registry = t.registry :=
  (spares_releaseListeners (S := fun _ => True)
    (t := t.setNode n { t.node n with listeners := [] }) fun _ _ => trivial).registry_eq

theorem listener_releaseNode (hl : ¬ S l) : (t.releaseNode n).listener l = t.listener l :=
  listener_dropListeners hS hl

omit hS in
theorem registry_releaseNode (t : Tailnet) (n : NodeId) :
    (t.releaseNode n).registry = t.registry :=
  registry_dropListeners t n

/-- Once its listeners are closed, the end of a node takes what leads to it off the registry. -/
theorem close_closed (hp : (t.node n).phase ≠ .closed)
    (hclosed : ∀ l ∈ (t.node n).listeners, ¬ t.Open l) :
    (t.close n).1 = .ok () ∧ (t.close n).2.registry =
        t.registry.forget (t.node n).addresses (t.node n).hostname ∧
      ∀ l, ¬ S l → (t.close n).2.listener l = t.listener l := by
  let x : Node := { t.node n with phase := .closed, online := false, loopback := none }
  have hnode : (t.setNode n x).node n = x := assign_same ..
  have hfold : (t.node n).listeners.foldl closeListener (t.setNode n x) = t.setNode n x :=
    closeListeners_closed hclosed
  have hdropped : ∀ l, ¬ S l → ((t.setNode n x).dropListeners n).listener l = t.listener l := by
    intro l hl
    apply listener_dropListeners (S := S)
    · rw [hnode]
      exact hS
    · exact hl
  have hregistry := registry_dropListeners (t.setNode n x) n
  unfold close
  simp only [if_neg hp]
  rw [hfold, registry_log, listener_log]
  exact ⟨trivial, congrArg (fun r : Registry => r.forget (t.node n).addresses (t.node n).hostname)
    hregistry, hdropped⟩

end Ending
end Tailnet

namespace Traffic
variable {S : ListenerId → Prop} {ips : List Address} {net net' : Tailnet} {f f' : Feed}
  {tables : Nat → Tables} {waiting : List Waiter} {log : List Event} {i : Nat}
  {b : Bridge Tailnet}

open Tailnet (Spares Inside)

theorem spares_advance (hl : S f.listener) (hc : ¬ net.Open f.listener)
    (h : f.Advance net f' net') : Spares S ips net net' := by
  cases h with
  | arrive => exact .of_listeners rfl rfl fun k hk => Tailnet.setListener_ne hl hk
  | discard | giveUp => exact .of_listeners rfl rfl fun _ _ => rfl
  | leave =>
    rw [Tailnet.closeListener_closed hc]
    exact .refl S ips net
  | _ => exact .refl S ips net

theorem spares_steps (n : Nat) (hw : net.Wired) (hl : S f.listener) (hc : ¬ net.Open f.listener) :
    Spares S ips net (f.steps n net).2 := by
  refine (Feed.steps_keep (P := fun f' t => f'.listener = f.listener ∧ net.Calm t ∧
    Spares S ips net t) ?_ n ⟨rfl, .refl hw, .refl S ips net⟩).2.2
  rintro f₁ t f₂ t' ⟨hf, hcalm, hspares⟩ ha
  have hc' : ¬ t.Open f₁.listener := fun ho => hc (hcalm.open (hf ▸ ho))
  exact ⟨(Feed.listener_advance ha).trans hf, hcalm.trans (calm_advance hcalm.wired hc' ha),
    hspares.trans (spares_advance (hf ▸ hl) hc' ha)⟩

theorem spares_endFeed (hw : b.net.Wired) {k : FeedId} (hl : S (b.feed k).listener)
    (hc : ¬ b.net.Open (b.feed k).listener) : Spares S ips b.net (b.endFeed k).net := by
  let f : Feed := { b.feed k with channel := (b.feed k).channel.shutdown }
  have hrun : Spares S ips b.net (f.run b.net).2 := spares_steps _ hw hl hc
  have hlistener : (f.run b.net).1.listener = (b.feed k).listener := Feed.listener_steps ..
  have hreleased : Spares S ips (f.run b.net).2
      ((f.run b.net).2.releaseListener (f.run b.net).1.listener) :=
    Tailnet.spares_releaseListener (hlistener ▸ hl)
  exact (hrun.trans hreleased).trans (.of_listeners rfl rfl fun _ _ => rfl)

/-- Closing listeners of `S` by their handles touches nobody else's, nor their feeds. -/
theorem spares_bridge_closeListener (hw : b.net.Wired) (hin : Inside S ips b.net)
    {listener : Handle} (hent : ∀ e, b.listeners.find? listener = some e →
      (b.feed e.feed).listener = e.listener ∧ S e.listener) :
    Spares S ips b.net (b.closeListener listener).2.net ∧
      ∀ m, (∀ e, b.listeners.find? listener = some e → e.feed ≠ m) →
        (b.closeListener listener).2.feed m = b.feed m := by
  cases he : b.listeners.find? listener with
  | none =>
    rw [Bridge.closeListener_none he]
    exact ⟨.refl S ips b.net, fun _ _ => rfl⟩
  | some e =>
    rw [Bridge.closeListener_some he]
    obtain ⟨hfeed, hl⟩ := hent e he
    have hclose : Spares S ips b.net (b.net.closeListener e.listener) :=
      Tailnet.spares_closeListener hw hin hl
    have hclosed := Tailnet.closed_closeListener b.net e.listener
    let b₁ : Bridge Tailnet := { b with
      listeners := b.listeners.erase listener, net := b.net.closeListener e.listener }
    have hw₁ : b₁.net.Wired := (Tailnet.calm_closeListener hw e.listener).wired
    have hend : Spares S ips b₁.net (b₁.endFeed e.feed).net :=
      spares_endFeed hw₁ (hfeed ▸ hl) (hfeed ▸ hclosed)
    refine ⟨hclose.trans hend, fun m hm => ?_⟩
    exact Bridge.feed_endFeed_ne b₁ (hm e rfl).symm

theorem spares_closeListeners (h : Fits tables waiting log i b) (hin : Inside S ips b.net)
    {ls : List Handle} (hS : ∀ k ∈ ls, ∀ e, b.listeners.find? k = some e → S e.listener) :
    Spares S ips b.net (b.closeListeners ls).net ∧
      ∀ m, (∀ k ∈ ls, ∀ e, b.listeners.find? k = some e → e.feed ≠ m) →
        (b.closeListeners ls).feed m = b.feed m := by
  induction ls generalizing b with
  | nil => exact ⟨.refl S ips b.net, fun _ _ => rfl⟩
  | cons l ls ih =>
    obtain ⟨hfits, hcloses⟩ := fits_closeListener h l
    have hent : ∀ e, b.listeners.find? l = some e →
        (b.feed e.feed).listener = e.listener ∧ S e.listener := by
      intro e he
      refine ⟨?_, hS l (List.mem_cons_self ..) e he⟩
      have hfeed := (h.entries i l e (by rwa [assign_same])).2
      rwa [assign_same] at hfeed
    have hfewer : ∀ k e, (b.closeListener l).2.listeners.find? k = some e →
        b.listeners.find? k = some e := fun k e he => ((hcloses.listeners k e).mp he).1
    obtain ⟨hspares, hfeeds⟩ := spares_bridge_closeListener h.wired hin hent
    obtain ⟨hrest, hfeedsRest⟩ := ih hfits (hin.calm hcloses.calm) fun k hk e he =>
      hS k (List.mem_cons_of_mem _ hk) e (hfewer k e he)
    refine ⟨hspares.trans hrest, fun m hm => ?_⟩
    have hlast := hfeedsRest m fun k hk e he =>
      hm k (List.mem_cons_of_mem _ hk) e (hfewer k e he)
    exact hlast.trans (hfeeds m (hm l (List.mem_cons_self ..)))

end Traffic
end Handoff
