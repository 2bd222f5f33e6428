import Handoff.Proofs.Traffic.Draining
import Handoff.Proofs.Traffic.Indifference
import Handoff.Proofs.Traffic.Reaching
import Handoff.Proofs.Traffic.Sparing

/-!
Whoever closes a listener's handle waits for its pump. On a machine that reaches itself the pumps of
open listeners end when the handles are closed.
-/

namespace Handoff

namespace Tailnet
variable {t : Tailnet} {l : ListenerId}

/-- Closing a listener leaves something that wakes its pump. -/
theorem backlog_closeListener (hw : Wired t) (hup : t.loopbackUp = true) (ho : t.Open l) :
    ((t.closeListener l).listener l).backlog ≠ [] := by
  let u := (t.markClosed l).unroute l
  have hbound : u.bound (u.listener l).backing = some l := by
    rw [listener_shut_self]
    exact hw.bound l (hw.held l ho)
  rw [closeListener, if_neg ((Bool.not_eq_true _).mpr ho)]
  change ((u.wake l).listener l).backlog ≠ []
  unfold wake
  split
  · rename_i e he
    cases hbound.symm.trans (connect_error (t := u) hup he)
  · rename_i id v hv
    obtain ⟨k, hk, rfl, rfl⟩ := connect_ok hv
    obtain rfl := Option.some.inj (hbound.symm.trans hk)
    rw [show Tailnet.listener _ l = _ from assign_same ..]
    exact List.append_ne_nil_of_right_ne_nil _ (List.cons_ne_nil _ _)

theorem indifferent_loopbackUp : Indifferent fun t t' => t'.loopbackUp = t.loopbackUp where
  refl _ := rfl
  trans h h' := h'.trans h
  streams _ _ _ := rfl
  backlog _ _ _ := rfl
  close t l := by
    unfold closeListener
    split
    · rfl
    · unfold wake
      split
      · rfl
      · rename_i h
        obtain ⟨k, -, rfl, rfl⟩ := connect_ok h
        rfl
  release t l := by
    unfold releaseListener
    dsimp only
    split <;> rfl

end Tailnet

namespace Traffic
variable {tables : Nat → Tables} {waiting : List Waiter} {log : List Event} {i : Nat}
  {b : Bridge Tailnet} {l : Handle} {e : ListenerEntry} {k : FeedId}

theorem joined_endFeed (hd : (b.feed k).pump = .done) (m : FeedId) :
    ((b.endFeed m).feed k).pump = .done := by
  by_cases hk : k = m
  · subst k
    let f : Feed := { b.feed m with channel := (b.feed m).channel.shutdown }
    rw [Bridge.pump_endFeed, Feed.run, Feed.steps_none (f := f) (Feed.step_done hd)]
    exact hd
  · rw [Bridge.feed_endFeed_ne b hk]
    exact hd

theorem joined_closeListeners (hd : (b.feed k).pump = .done) (ls : List Handle) :
    ((b.closeListeners ls).feed k).pump = .done := by
  induction ls generalizing b with
  | nil => exact hd
  | cons l ls ih =>
    refine ih (b := (b.closeListener l).2) ?_
    cases he : b.listeners.find? l with
    | none =>
      rw [Bridge.closeListener_none he]
      exact hd
    | some e =>
      rw [Bridge.closeListener_some he]
      let b₁ : Bridge Tailnet := { b with
        listeners := b.listeners.erase l, net := b.net.closeListener e.listener }
      exact joined_endFeed (b := b₁) hd e.feed

section Closing
variable (h : Fits tables waiting log i b) (he : b.listeners.find? l = some e)
  (ho : b.net.Open e.listener)
include h he ho

theorem joins_closeListener (hup : b.net.loopbackUp = true) :
    ((b.closeListener l).2.feed e.feed).pump = .done := by
  have hentry := (h.entries i l e (by rwa [assign_same])).2
  rw [assign_same] at hentry
  rw [Bridge.closeListener_some he, Bridge.pump_endFeed]
  let f : Feed := { b.feed e.feed with channel := (b.feed e.feed).channel.shutdown }
  let t := b.net.closeListener e.listener
  have hclosed : ¬ t.Open f.listener := by
    rw [show f.listener = e.listener from hentry]
    exact Tailnet.closed_closeListener _ _
  have hstops : f.Stops t (f.run t) := f.stops_steps hclosed rfl _
  refine hstops.woken ?_
  rw [show f.listener = e.listener from hentry]
  exact Tailnet.backlog_closeListener h.wired hup ho

/-- Closing a handle leaves another one's listener open. -/
theorem open_closeListener {m : Handle} (hm : l ≠ m) :
    (b.closeListener m).2.net.Open e.listener := by
  have hentry : ∀ k x, b.listeners.find? k = some x →
      x.feed < b.feeds ∧ (b.feed x.feed).listener = x.listener := by
    intro k x hx
    have hx := h.entries i k x (by rwa [assign_same])
    rwa [assign_same] at hx
  cases hx : b.listeners.find? m with
  | none =>
    rw [Bridge.closeListener_none hx]
    exact ho
  | some x =>
    have hne : e.listener ≠ x.listener := by
      intro hsame
      obtain ⟨hlt, hfeed⟩ := hentry l e he
      obtain ⟨hlt', hfeed'⟩ := hentry m x hx
      have hk := (h.split i i e.feed x.feed (by rwa [assign_same]) (by rwa [assign_same])
        (by rw [assign_same, hfeed, hfeed', hsame])).2
      exact hm (h.single i l m e x (by rwa [assign_same]) (by rwa [assign_same]) hk)
    let ips := (b.net.listener x.listener).addresses.map Endpoint.ip
    have hin : Tailnet.Inside (· = x.listener) ips b.net := by
      rintro k rfl - a ha
      exact List.mem_map_of_mem ha
    have hown : ∀ y, b.listeners.find? m = some y →
        (b.feed y.feed).listener = y.listener ∧ y.listener = x.listener := by
      intro y hy
      obtain rfl := Option.some.inj (hx.symm.trans hy)
      exact ⟨(hentry m x hx).2, rfl⟩
    have hspares := (spares_bridge_closeListener h.wired hin hown).1
    change ((b.closeListener m).2.net.listener e.listener).closed = false
    rw [hspares.listener _ hne]
    exact ho

theorem joins_closeListeners (hup : b.net.loopbackUp = true) {ls : List Handle} (hl : l ∈ ls) :
    ((b.closeListeners ls).feed e.feed).pump = .done := by
  induction ls generalizing b with
  | nil => cases hl
  | cons m ls ih =>
    by_cases hm : l = m
    · subst m
      exact joined_closeListeners (joins_closeListener h he ho hup) ls
    · have hup' := Bridge.within_closeListener Tailnet.indifferent_loopbackUp b m
      have he' : (b.closeListener m).2.listeners.find? l = some e :=
        ((b.closeListener_tables m).2 l).trans ((if_neg hm).trans he)
      exact ih (fits_closeListener h m).1 he' (open_closeListener h he ho hm) (hup'.trans hup)
        ((List.mem_cons.mp hl).resolve_left hm)

/-- Closing a server waits for the pumps of its open listeners. -/
theorem joins_close (hup : b.net.loopbackUp = true) {s : Server}
    (hs : b.servers.find? e.server = some s) :
    ((b.close e.server).2.feed e.feed).pump = .done := by
  rw [Bridge.close_some hs]
  exact joins_closeListeners (fits_eraseServer h e.server) he ho hup
    (Bridge.mem_listenersOf.mpr ⟨e, he, rfl⟩)

end Closing
end Traffic
end Handoff
