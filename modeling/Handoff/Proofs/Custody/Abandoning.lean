import Handoff.Proofs.Custody.Tallying

/-!
What closing a listener leaves behind. Main statement: the node that lists the listener holds it
until it opens another or ends. Meanwhile the connections that nobody has taken go on waiting there,
with nobody left who could take them, and end only then.
-/

namespace Handoff

theorem Verb.Asks.listen {v : Verb} {network address : String} {funnel : Option FunnelMode}
    (h : v.Asks (.listen network address funnel)) :
    ∃ server, v = .listen server network address funnel := by
  cases v with
  | listen server network address funnel =>
    cases h
    exact ⟨server, rfl⟩
  | applyConfig =>
    obtain ⟨_, -, he⟩ := h
    cases he
  | _ => cases h

namespace Tailnet

/-- Somebody still holds the listener. The connections `q` wait there, and have not ended. -/
structure Lingers (t : Tailnet) (l : ListenerId) (q : List Descriptor) : Prop where
  holders : (t.listener l).holders = 1
  queue : (t.listener l).queued = q
  unended : ∀ d ∈ q, (t.streams.own d).ended = false

structure Freed (t : Tailnet) (l : ListenerId) (q : List Descriptor) : Prop where
  holders : (t.listener l).holders = 0
  queue : (t.listener l).queued = []
  ended : ∀ d ∈ q, (t.streams.own d).ended = true

end Tailnet

namespace Custody
open Tailnet (Relists indifferent_thins thins_ask thins_of_node)
open Traffic (Stays fits_bridge)
variable {c c' c'' : Custody} {i : Nat} {l : ListenerId} {h : Handle} {e : ListenerEntry}
  {q : List Descriptor}

/-- The listener is closed, no bridge has a handle of it, and no pump takes a connection from it. -/
structure Marooned (c : Custody) (l : ListenerId) (q : List Descriptor) : Prop where
  adrift : c.net.Adrift l q
  waited : c.net.Waited l
  retired : ∀ i h e, (c.tables i).listeners.find? h = some e → e.listener ≠ l
  idle : ∀ i k, k < (c.tables i).feeds → ((c.tables i).feed k).listener = l →
    ((c.tables i).feed k).pump = .done ∨
      ((c.tables i).feed k).pump = .accepting .waiting ∧ q = []

theorem Marooned.lingers (h : Marooned c l q) {n : NodeId} (hn : l ∈ (c.net.node n).listeners) :
    c.net.Lingers l q := by
  obtain ⟨rfl, -⟩ := h.adrift.waits n hn
  obtain ⟨-, -, hholders⟩ := h.adrift.tallied.count_eq_one hn
  exact ⟨hholders, rfl, h.waited.unended⟩

theorem Marooned.freed (h : Marooned c l q) (hn : c.net.Unlisted l) : c.net.Freed l q := by
  obtain ⟨hqueue, hended⟩ := h.adrift.ends hn
  rcases h.adrift.tallied.held with ⟨n, hone, -, -⟩ | ⟨-, hholders⟩
  · exact absurd (List.count_pos_iff.mp (hone ▸ Nat.one_pos)) (hn n)
  · exact ⟨hholders, hqueue, hended⟩

/-- The listener's pump cannot make a step. -/
theorem Marooned.pump (h : Marooned c l q) {k : FeedId} (hk : k < (c.tables i).feeds)
    (hl : ((c.tables i).feed k).listener = l) :
    { c with toTraffic := c.toTraffic.pump i k } = c := by
  have hblocked : ((c.tables i).feed k).step c.net = none := by
    rcases h.idle i k hk hl with hdone | ⟨hwaiting, rfl⟩
    · exact Feed.step_done hdone
    · have hqueue : (c.net.listener l).queued = [] := by
        by_cases hn : c.net.Unlisted l
        · exact (h.freed hn).queue
        · obtain ⟨n, hn⟩ := not_forall.mp hn
          exact (h.lingers (not_not.mp hn)).queue
      exact Feed.step_blocked hwaiting (List.map_eq_nil_iff.mp (hl ▸ hqueue))
  unfold Traffic.pump
  rw [hblocked]

/-- Nothing that happens changes what such a listener is, apart from the node that lists it. -/
theorem marooned_move (hr : Reachable c) (hm : Move c c') (h : Marooned c l q) :
    Marooned c' l q := by
  rcases minds_move hr hm h.adrift.tallied.made h.waited.sole with hminds | ⟨i, k, hk, hl, rfl⟩
  · have hstays : ∀ i, Stays l (c.tables i) (c'.tables i) :=
      fun i k e he hl => absurd hl (h.retired i k e he)
    refine ⟨(hminds.tends hstays).adrift q h.adrift,
      waited_move hr hm hminds.toQueues h.waited, fun i k e he hl => ?_, fun i k hk hl => ?_⟩
    · exact h.retired i k e (hminds.handles i k e he hl) hl
    · obtain ⟨hk, hl, hpump⟩ := hminds.still hstays i k hk hl
      rw [hpump]
      exact h.idle i k hk hl
  · rwa [h.pump hk hl]

theorem Marooned.later (hr : Reachable c) (h : Marooned c l q) (hl : Later c c') :
    Marooned c' l q := by
  induction hl with
  | refl => exact h
  | tail hl hm ih => exact marooned_move (hr.later hl) hm ih

section Closing

theorem move_closeListener (c : Custody) (i : Nat) (h : Handle) :
    Move c (c.perform i (.closeListener h)) :=
  .perform i (.closeListener h) fun _ _ _ _ he => by cases he

variable (hr : Reachable c) (he : (c.tables i).listeners.find? h = some e)
include hr he

/-- Closing a listener by its handle maroons it. -/
theorem marooned_closeListener : ∃ q, Marooned (c.perform i (.closeListener h)) e.listener q ∧
    Bridge.Leaves (c.bridge i) ((c.bridge i).closeListener h).2 e.listener e.feed q := by
  have hs := hr.intact
  have hattended := hr.attended he
  have hm := move_closeListener c i h
  let b := c.bridge i
  have hfound : ∀ k, (b.closeListener h).2.listeners.find? k =
      if k = h then none else b.listeners.find? k := (b.closeListener_tables h).2
  obtain ⟨hlt, hfeed⟩ := hs.entries i h e he
  obtain ⟨q, hleaves⟩ := Bridge.leaves_closeListener (b := b) hs.wired he hfeed
    hattended.tallied hattended.waited.sole
  refine ⟨q, ⟨hleaves.adrift, ?_, ?_, ?_⟩, hleaves⟩
  · have hminds := Traffic.minds_closeListener (fits_bridge hs i) e.listener h
    exact waited_move hr hm hminds.toQueues hattended.waited
  · intro j k a ha hl
    change (assign c.tables i (b.closeListener h).2.toTables j).listeners.find? k = some a at ha
    rw [assign_apply] at ha
    split at ha
    · subst j
      rw [hfound] at ha
      split at ha
      · cases ha
      · exact absurd (handle_unique hr he ha hl).2 ‹k ≠ h›
    · exact absurd (handle_unique hr he ha hl).1 ‹j ≠ i›
  · intro j k hk hl
    have hsame : (b.closeListener h).2.feeds = b.feeds ∧
        ∀ m, ((b.closeListener h).2.feed m).listener = (b.feed m).listener := by
      rw [Bridge.closeListener_some (b := b) he]
      exact ⟨rfl, fun m => Traffic.listener_endFeed _ e.feed m⟩
    -- the listener has one feed
    have hown : ∀ j m, m < (c.tables j).feeds → ((c.tables j).feed m).listener = e.listener →
        j = i ∧ m = e.feed := fun j m hm hl => hs.split j i m e.feed hm hlt (hl.trans hfeed.symm)
    change k < (assign c.tables i (b.closeListener h).2.toTables j).feeds at hk
    change ((assign c.tables i (b.closeListener h).2.toTables j).feed k).listener = _ at hl
    change ((assign c.tables i (b.closeListener h).2.toTables j).feed k).pump = _ ∨
      ((assign c.tables i (b.closeListener h).2.toTables j).feed k).pump = _ ∧ _
    rw [assign_apply] at hk hl ⊢
    split at hl
    · rw [if_pos ‹j = i›] at hk ⊢
      obtain ⟨-, rfl⟩ := hown i k (hsame.1 ▸ hk) ((hsame.2 k).symm.trans hl)
      exact hleaves.idle
    · rw [if_neg ‹j ≠ i›] at hk
      exact absurd (hown j k hk hl).1 ‹j ≠ i›

end Closing

section LettingGo

/-- Whatever happens, a closed listener goes from the list of a node that opens another or loses
all, and from no other. -/
theorem relists_perform (hr : Reachable c) (hl : l < c.net.listeners) (hc : ¬ c.net.Open l)
    (i : Nat) (v : Verb) : Relists l c.net ((c.bridge i).perform v).2.net := by
  have hw : c.net.Wired := hr.intact.wired
  by_cases hv : ∃ server network address funnel, v = .listen server network address funnel
  · obtain ⟨server, network, address, funnel, rfl⟩ := hv
    change Relists l c.net ((c.bridge i).listen server network address funnel).2.net
    rcases Traffic.listen_worded (c.bridge i) server network address funnel with
      ⟨f, hf⟩ | ⟨s, -, ⟨f, -, hf⟩ | ⟨k, -, hf⟩⟩ <;> rw [hf]
    · exact (indifferent_thins.refl c.net).relists hw l
    · exact Tailnet.relists_listen hw hl hc s.node network address funnel
    · exact Tailnet.relists_listen hw hl hc s.node network address funnel
  · refine (Bridge.within_perform indifferent_thins (c.bridge i) v ?_
      Tailnet.thins_releaseNode).relists hw l
    intro nv hasks t n
    refine thins_ask t n fun network address funnel hnv => ?_
    subst hnv
    obtain ⟨server, he⟩ := hasks.listen
    exact hv ⟨server, network, address, funnel, he⟩

theorem relists_move (hr : Reachable c) (hl : l < c.net.listeners) (hc : ¬ c.net.Open l)
    (hm : Move c c') : Relists l c.net c'.net := by
  have hw : c.net.Wired := hr.intact.wired
  have hsame : ∀ {net}, net.node = c.net.node → Relists l c.net net :=
    fun hn => (thins_of_node hn).relists hw l
  cases hm with
  | newServer i _ => exact hsame rfl
  | perform i v _ => exact relists_perform hr hl hc i v
  | resume w _ =>
    rw [net_resume]
    exact hsame (Bridge.node_takes (takes_resumed c w))
  | pump i k _ =>
    apply hsame
    unfold Traffic.pump
    split
    · exact Feed.node_advance (Feed.advance_of_step ‹_›)
    · rfl
  | dropBridge i _ =>
    exact (Bridge.within_drop indifferent_thins Tailnet.thins_releaseNode
      (c.bridge i)).relists hw l
  | newNode => exact hsame rfl
  | use n u _ _ =>
    have hask : ∀ nv, (∀ network address funnel, nv ≠ .listen network address funnel) →
        Relists l c.net (c.net.ask n nv).2 := fun nv hnv => (thins_ask c.net n hnv).relists hw l
    rw [net_use]
    cases u with
    | configure option => exact hask (.configure option) nofun
    | start => exact hask .start nofun
    | up => exact hask .up nofun
    | loopback => exact hask .loopback nofun
    | close => exact hask .close nofun
    | listen network address funnel =>
      exact Tailnet.relists_listen hw hl hc n network address funnel
    | dial network address => exact hask (.dial network address) nofun
  | closeListener k => exact hsame (Tailnet.node_closeListener ..)
  | useFiles files => exact hsame rfl
  | useStream d u _ => exact hsame rfl
  | release d _ => exact hsame rfl

end LettingGo

/-- What closing the listener of `h`, for which `e` is noted, leaves from `c` in `c'`. -/
structure Abandons (c c' : Custody) (i : Nat) (h : Handle) (e : ListenerEntry) : Prop where
  answers : ((c.bridge i).closeListener h).1 = .ok ()
  retired : (c'.tables i).listeners.find? h = none
  shut : ¬ c'.net.Open e.listener
  /-- The node keeps it on its list. -/
  node : c'.net.node = c.net.node
  /-- Of the connections that nobody has taken one at most is still taken, and ends. The others wait
  there for as long as a node lists the listener, and no longer. -/
  waits : ∃ q, (c.net.listener e.listener).queued.tail ⊆ q ∧
    (∀ d ∈ (c.net.listener e.listener).queued,
      d ∈ q ∨ (c'.net.streams.own d).ended = true) ∧
    ∀ c'', Later c' c'' →
      (∀ n, e.listener ∈ (c''.net.node n).listeners → c''.net.Lingers e.listener q) ∧
        (c''.net.Unlisted e.listener → c''.net.Freed e.listener q)
  /-- The node takes it off its list when it opens another listener, or loses all. -/
  relists : ∀ c₁ c₂, Later c' c₁ → Move c₁ c₂ → Relists e.listener c₁.net c₂.net

/-- A listener that is closed is let go of by all but its node. -/
theorem abandons_of_reachable (hr : Reachable c)
    (he : (c.tables i).listeners.find? h = some e) :
    Abandons c (c.perform i (.closeListener h)) i h e := by
  have hm := move_closeListener c i h
  obtain ⟨q, hmarooned, hleaves⟩ := marooned_closeListener hr he
  exact {
    answers := by rw [Bridge.closeListener_some (b := c.bridge i) he]
    retired := by
      cases hfind : ((c.perform i (.closeListener h)).tables i).listeners.find? h with
      | none => rfl
      | some a =>
        change (assign c.tables i ((c.bridge i).closeListener h).2.toTables i).listeners.find? h
          = some a at hfind
        rw [assign_same, ((c.bridge i).closeListener_tables h).2, if_pos rfl] at hfind
        exact hfind.symm
    shut := hmarooned.adrift.closed
    node := Traffic.node_closeListener (c.bridge i) h
    waits := by
      refine ⟨q, hleaves.waits, hleaves.taken, fun c'' hl => ?_⟩
      have hlater := hmarooned.later (hr.next hm) hl
      exact ⟨fun n hn => hlater.lingers hn, hlater.freed⟩
    relists := fun c₁ c₂ hl hm' => by
      have hlater := hmarooned.later (hr.next hm) hl
      exact relists_move ((hr.next hm).later hl) hlater.adrift.tallied.made
        hlater.adrift.closed hm' }

/-- A server listens, and another dials it twice before anything is accepted. -/
def deserted : Custody :=
  let c := newServer { net := {} } 0
  let c := c.newServer 0
  let c := c.perform 0 (.listen ⟨2752513⟩ "tcp" ":80" none)
  let c := c.perform 0 (.dial ⟨2752514⟩ "tcp" "100.64.0.1:80")
  c.perform 0 (.dial ⟨2752514⟩ "tcp" "100.64.0.1:80")

theorem reachable_deserted : Reachable deserted := by
  have hfirst : Reachable (newServer { net := {} } 0) :=
    .next (.start "bridge.ts.net" .standard true .root)
      (.newServer 0 ⟨2752513, by decide, by decide +kernel⟩)
  have hservers := hfirst.next (.newServer 0 ⟨2752514, by decide, by decide +kernel⟩)
  have hlistens := hservers.next (.perform 0 (.listen ⟨2752513⟩ "tcp" ":80" none)
    fun _ _ _ _ _ => ⟨2818049, by decide, by decide +kernel⟩)
  have hdials := hlistens.next (.perform 0 (.dial ⟨2752514⟩ "tcp" "100.64.0.1:80")
    fun _ _ _ _ he => by cases he)
  exact hdials.next (.perform 0 (.dial ⟨2752514⟩ "tcp" "100.64.0.1:80")
    fun _ _ _ _ he => by cases he)

theorem abandons_of_deserted :
    (deserted.net.listener 0).queued = [⟨0, .far⟩, ⟨1, .far⟩] ∧
      Abandons deserted (deserted.perform 0 (.closeListener ⟨2818049⟩)) 0 ⟨2818049⟩
        ⟨⟨2752513⟩, 0, 0⟩ :=
  ⟨by decide +kernel, abandons_of_reachable reachable_deserted (by decide +kernel)⟩

/-- The listener is closed and has no handle, but its node has it on its list, and two connections
that were dialed wait there still. -/
theorem lingers_of_deserted :
    let c := deserted.perform 0 (.closeListener ⟨2818049⟩)
    Reachable c ∧ (c.tables 0).listeners.find? ⟨2818049⟩ = none ∧
      0 ∈ (c.net.node 0).listeners ∧ ¬ c.net.Open 0 ∧ (c.net.listener 0).holders = 1 ∧
        ∀ d ∈ [(⟨0, .far⟩ : Descriptor), ⟨1, .far⟩],
          d ∈ (c.net.listener 0).queued ∧ (c.net.streams.own d).ended = false :=
  ⟨reachable_deserted.next (move_closeListener deserted 0 ⟨2818049⟩), by decide +kernel,
    by decide +kernel, by decide +kernel, by decide +kernel, by decide +kernel⟩

end Custody
end Handoff
