import Handoff.Proofs.Bridge.Records
import Handoff.Proofs.Traffic.Pumping

namespace Handoff.Traffic
variable {net net' : Tailnet} {tables tables' : Nat → Tables} {waiting : List Waiter}
  {log : List Event} {i : Nat} {b : Bridge Tailnet} {f f' : Feed}

/-- Tables with fewer handles. A listener's handle goes only once the listener is closed. -/
structure Fewer (net : Tailnet) (a b : Tables) : Prop where
  servers : ∀ h s, b.servers.find? h = some s → a.servers.find? h = some s
  listeners : ∀ h e, b.listeners.find? h = some e → a.listeners.find? h = some e
  tidy : b.listeners.Tidy
  gone : ∀ h e, a.listeners.find? h = some e →
    b.listeners.find? h = some e ∨ ¬ net.Open e.listener
  feeds : ∀ k, k < b.feeds → k < a.feeds ∧ b.feed k = a.feed k
  fed : ∀ h e, b.listeners.find? h = some e → e.feed < b.feeds

theorem Sound.fewer (h : Sound net tables waiting log) (hf : ∀ i, Fewer net (tables i) (tables' i))
    (hw : ∀ w ∈ waiting, (tables' w.bridge).feeds = (tables w.bridge).feeds) :
    Sound net tables' waiting log where
  wired := h.wired
  owned := h.owned
  tidy := fun i => (hf i).tidy
  unmade := h.unmade
  nodes := fun i k a ha => h.nodes i k a ((hf i).servers k a ha)
  apart := fun i j k m a b ha hb =>
    h.apart i j k m a b ((hf i).servers k a ha) ((hf j).servers m b hb)
  feeds := fun i k hk => by
    obtain ⟨hk, he⟩ := (hf i).feeds k hk
    rw [he]
    exact h.feeds i k hk
  split := fun i j k m hk hm hl => by
    obtain ⟨hk, hke⟩ := (hf i).feeds k hk
    obtain ⟨hm, hme⟩ := (hf j).feeds m hm
    rw [hke, hme] at hl
    exact h.split i j k m hk hm hl
  entries := fun i k e he => by
    have hfed := (hf i).fed k e he
    refine ⟨hfed, ?_⟩
    rw [((hf i).feeds _ hfed).2]
    exact (h.entries i k e ((hf i).listeners k e he)).2
  single := fun i k m a b ha hb =>
    h.single i k m a b ((hf i).listeners k a ha) ((hf i).listeners m b hb)
  served := fun i k a ha l hl ho => by
    obtain ⟨m, e, he, hs, rfl⟩ := h.served i k a ((hf i).servers k a ha) l hl ho
    rcases (hf i).gone m e he with he | hc
    · exact ⟨m, e, he, hs, rfl⟩
    · exact absurd ho hc
  waits := fun w hmem => by
    rw [hw w hmem]
    obtain ⟨hlt, hwait⟩ := h.waits w hmem
    exact ⟨hlt, fun k e he => hwait k e ((hf w.bridge).listeners k e he)⟩
  lines := fun i k e he ho => by
    rw [((hf i).feeds _ ((hf i).fed k e he)).2]
    exact h.lines i k e ((hf i).listeners k e he) ho
  dialed := h.dialed
  accepted := h.accepted
  fresh := h.fresh

/-- A sound table of listeners hands out feeds it has. -/
theorem Sound.fewer_self (h : Sound net tables waiting log) (i : Nat) :
    Fewer net (tables i) (tables i) where
  servers := fun _ _ => id
  listeners := fun _ _ => id
  tidy := h.tidy i
  gone := fun _ _ => .inl
  feeds := fun _ hk => ⟨hk, rfl⟩
  fed := fun k e he => (h.entries i k e he).1

theorem fits_fewer {c : Tables} (h : Fits tables waiting log i b)
    (hf : Fewer b.net b.toTables c) (hw : ∀ w ∈ waiting, w.bridge = i → c.feeds = b.feeds) :
    Sound b.net (assign tables i c) waiting log := by
  refine Sound.fewer h (fun j => ?_) fun w hmem => ?_
  · by_cases hj : j = i
    · subst j
      rwa [assign_same, assign_same]
    · have := h.fewer_self j
      rw [assign_of_ne _ _ _ hj] at this ⊢
      rwa [assign_of_ne _ _ _ hj]
  · by_cases hi : w.bridge = i
    · rw [hi, assign_same, assign_same]
      exact hw w hmem hi
    · rw [assign_of_ne _ _ _ hi, assign_of_ne _ _ _ hi]

theorem fits_eraseServer (h : Fits tables waiting log i b) (server : Handle) :
    Fits tables waiting log i { b with servers := b.servers.erase server } := by
  have hself := h.fewer_self i
  rw [assign_same] at hself
  refine fits_fewer (b := b) h { hself with servers := fun k s hs => ?_ } fun _ _ _ => rfl
  change (b.servers.erase server).find? k = some s at hs
  rw [HandleTable.find?_erase] at hs
  split at hs
  · cases hs
  · exact hs

theorem fits_eraseListener (h : Fits tables waiting log i b) {listener : Handle}
    {entry : ListenerEntry} (he : b.listeners.find? listener = some entry)
    (hc : ¬ b.net.Open entry.listener) :
    Fits tables waiting log i { b with listeners := b.listeners.erase listener } := by
  have hself := h.fewer_self i
  rw [assign_same] at hself
  have hfind : ∀ k e, (b.listeners.erase listener).find? k = some e →
      b.listeners.find? k = some e := by
    intro k e hk
    rw [HandleTable.find?_erase] at hk
    split at hk
    · cases hk
    · exact hk
  refine fits_fewer (b := b) h { hself with
    listeners := hfind
    tidy := hself.tidy.erase listener
    gone := fun k e hk => ?_
    fed := fun k e hk => hself.fed k e (hfind k e hk) } fun _ _ _ => rfl
  change (b.listeners.erase listener).find? k = some e ∨ _
  rw [HandleTable.find?_erase]
  split
  · subst k
    obtain rfl := Option.some.inj (he.symm.trans hk)
    exact .inr hc
  · exact .inl hk

theorem calm_advance (hw : net.Wired) (hc : ¬ net.Open f.listener)
    (h : f.Advance net f' net') : net.Calm net' := by
  rcases moves_advance hw h with ⟨_, hm⟩ | ⟨hcalm, -⟩
  · exact hm.calm hc
  · exact hcalm

/-- The pump of a closed listener brings nothing any more. -/
theorem calm_steps (n : Nat) (hw : net.Wired) (hc : ¬ net.Open f.listener) :
    net.Calm (f.steps n net).2 := by
  refine (Feed.steps_keep (P := fun f' t => f'.listener = f.listener ∧ net.Calm t) ?_ n
    ⟨rfl, .refl hw⟩).2
  rintro f₁ t f₂ t' ⟨hl, hcalm⟩ ha
  have hc' : ¬ t.Open f₁.listener := fun ho => hc (hcalm.open (hl ▸ ho))
  exact ⟨(Feed.listener_advance ha).trans hl, hcalm.trans (calm_advance hcalm.wired hc' ha)⟩

/-- The feed of a listener once nobody receives any more. -/
theorem feed_stopFeed (b : Bridge Tailnet) (k : FeedId) : (b.stopFeed k).feed k =
    ({ b.feed k with channel := (b.feed k).channel.shutdown }.run b.net).1 :=
  assign_same ..

theorem listener_stopFeed (b : Bridge Tailnet) (i k : FeedId) :
    ((b.stopFeed i).feed k).listener = (b.feed k).listener := by
  let f : Feed := { b.feed i with channel := (b.feed i).channel.shutdown }
  have hf : (f.run b.net).1.listener = (b.feed i).listener := Feed.listener_steps ..
  exact listener_assign hf k

theorem listener_endFeed (b : Bridge Tailnet) (i k : FeedId) :
    ((b.endFeed i).feed k).listener = (b.feed k).listener :=
  (listener_sweep ..).trans (listener_stopFeed ..)

theorem node_endFeed (b : Bridge Tailnet) (i : FeedId) : (b.endFeed i).net.node = b.net.node := by
  let f : Feed := { b.feed i with channel := (b.feed i).channel.shutdown }
  have hrun : (f.run b.net).2.node = b.net.node := Feed.node_steps ..
  exact (Tailnet.node_releaseListener (f.run b.net).2 (f.run b.net).1.listener).trans hrun

theorem node_closeListener (b : Bridge Tailnet) (l : Handle) :
    (b.closeListener l).2.net.node = b.net.node := by
  cases he : b.listeners.find? l with
  | none => rw [Bridge.closeListener_none he]
  | some entry =>
    rw [Bridge.closeListener_some he, node_endFeed]
    exact Tailnet.node_closeListener ..

theorem node_closeListeners (b : Bridge Tailnet) (ls : List Handle) :
    (b.closeListeners ls).net.node = b.net.node := by
  induction ls generalizing b with
  | nil => rfl
  | cons l ls ih => exact (ih _).trans (node_closeListener b l)

/-- The end of a feed brings nothing any more either. -/
theorem calm_stopFeed (hw : b.net.Wired) {k : FeedId} (hc : ¬ b.net.Open (b.feed k).listener) :
    b.net.Calm (b.stopFeed k).net := by
  let f : Feed := { b.feed k with channel := (b.feed k).channel.shutdown }
  let r := f.run b.net
  have hl : r.1.listener = (b.feed k).listener := Feed.listener_steps ..
  have hrun : b.net.Calm r.2 := calm_steps _ hw hc
  have hclosed : ¬ r.2.Open r.1.listener := fun ho => hc (hrun.open (hl ▸ ho))
  exact hrun.trans (Tailnet.calm_releaseListener hrun.wired hclosed)

theorem calm_endFeed (hw : b.net.Wired) {k : FeedId} (hc : ¬ b.net.Open (b.feed k).listener) :
    b.net.Calm (b.endFeed k).net :=
  have hcalm := calm_stopFeed hw hc
  hcalm.trans (calm_sweep hcalm.wired k)

theorem fits_endFeed (h : Fits tables waiting log i b) {k : FeedId} (hk : k < b.feeds)
    (hc : ¬ b.net.Open (b.feed k).listener) :
    Fits tables waiting log i (b.endFeed k) ∧ b.net.Calm (b.endFeed k).net := by
  have hcalm := calm_stopFeed h.wired hc
  let f : Feed := { b.feed k with channel := (b.feed k).channel.shutdown }
  have hf : (f.run b.net).1.listener = (b.feed k).listener := Feed.listener_steps ..
  have hstopped : Fits tables waiting log i (b.stopFeed k) :=
    fits_setFeed (b := { b with net := (b.stopFeed k).net }) (h.update hcalm (.refl _)) hk hf
      fun ho => hc (hcalm.open ho)
  exact ⟨fits_sweep hstopped hk, calm_endFeed h.wired hc⟩

structure Closes (b b' : Bridge Tailnet) (ls : List Handle) : Prop where
  calm : b.net.Calm b'.net
  servers : b'.servers = b.servers
  conns : b'.conns = b.conns
  listeners : ∀ h e, b'.listeners.find? h = some e ↔ b.listeners.find? h = some e ∧ h ∉ ls
  closed : ∀ h ∈ ls, ∀ e, b.listeners.find? h = some e → ¬ b'.net.Open e.listener

theorem closes_closeListener (hw : b.net.Wired) (listener : Handle)
    (hf : ∀ e, b.listeners.find? listener = some e → (b.feed e.feed).listener = e.listener) :
    Closes b (b.closeListener listener).2 [listener] := by
  cases he : b.listeners.find? listener with
  | none =>
    rw [Bridge.closeListener_none he]
    refine ⟨.refl hw, rfl, rfl, fun k e => ?_, fun k hk e he' => ?_⟩
    · refine ⟨fun hk => ⟨hk, fun hmem => ?_⟩, And.left⟩
      rw [List.mem_singleton.mp hmem, he] at hk
      cases hk
    · rw [List.mem_singleton.mp hk, he] at he'
      cases he'
  | some entry =>
    rw [Bridge.closeListener_some he]
    have hclose := Tailnet.calm_closeListener hw entry.listener
    have hclosed := Tailnet.closed_closeListener b.net entry.listener
    have hend : (b.net.closeListener entry.listener).Calm _ :=
      calm_endFeed (b := { b with
        listeners := b.listeners.erase listener, net := b.net.closeListener entry.listener })
        (k := entry.feed) hclose.wired (hf entry he ▸ hclosed)
    refine ⟨hclose.trans hend, rfl, rfl, fun k e => ?_, fun k hk e hk' => ?_⟩
    · change (b.listeners.erase listener).find? k = some e ↔ _
      rw [HandleTable.find?_erase, List.mem_singleton]
      split <;> simp [*]
    · rw [List.mem_singleton.mp hk] at hk'
      obtain rfl := Option.some.inj (he.symm.trans hk')
      exact fun ho => hclosed (hend.open ho)

theorem fits_closeListener (h : Fits tables waiting log i b) (listener : Handle) :
    Fits tables waiting log i (b.closeListener listener).2 ∧
      Closes b (b.closeListener listener).2 [listener] := by
  have hent : ∀ e, b.listeners.find? listener = some e →
      e.feed < b.feeds ∧ (b.feed e.feed).listener = e.listener := by
    intro e he
    have hent := h.entries i listener e (by rwa [assign_same])
    rwa [assign_same] at hent
  refine ⟨?_, closes_closeListener h.wired listener fun e he => (hent e he).2⟩
  cases he : b.listeners.find? listener with
  | none =>
    rw [Bridge.closeListener_none he]
    exact h
  | some entry =>
    rw [Bridge.closeListener_some he]
    obtain ⟨hlt, hfeed⟩ := hent entry he
    have hclosed := Tailnet.closed_closeListener b.net entry.listener
    have hfits : Fits tables waiting log i
        { b with net := b.net.closeListener entry.listener } :=
      h.update (Tailnet.calm_closeListener h.wired entry.listener) (.refl _)
    exact (fits_endFeed (fits_eraseListener hfits he hclosed) hlt (hfeed ▸ hclosed)).1

theorem fits_closeListeners (h : Fits tables waiting log i b) (ls : List Handle) :
    Fits tables waiting log i (b.closeListeners ls) ∧ Closes b (b.closeListeners ls) ls := by
  induction ls generalizing b with
  | nil =>
    exact ⟨h, .refl h.wired, rfl, rfl, fun _ _ => by simp [Bridge.closeListeners],
      fun _ hk => absurd hk List.not_mem_nil⟩
  | cons l ls ih =>
    obtain ⟨hone, hfirst⟩ := fits_closeListener h l
    obtain ⟨hall, hrest⟩ := ih hone
    refine ⟨hall, hfirst.calm.trans hrest.calm, hrest.servers.trans hfirst.servers,
      hrest.conns.trans hfirst.conns, fun k e => ?_, fun k hk e he => ?_⟩
    · change ((b.closeListener l).2.closeListeners ls).listeners.find? k = some e ↔ _
      rw [hrest.listeners, hfirst.listeners, List.mem_singleton, List.mem_cons, not_or, and_assoc]
    · by_cases hkl : k = l
      · exact fun ho => hfirst.closed k (List.mem_singleton.mpr hkl) e he (hrest.calm.open ho)
      · refine hrest.closed k ((List.mem_cons.mp hk).resolve_left hkl) e ?_
        rw [hfirst.listeners]
        exact ⟨he, fun hm => hkl (List.mem_singleton.mp hm)⟩

/-- Once the listeners of a server are closed, its node has none left that is open. -/
theorem closed_of_served {ls : List Handle} (h : Fits tables waiting log i b)
    (hcalm : b.net.Calm net)
    (hclosed : ∀ k ∈ ls, ∀ e, b.listeners.find? k = some e → ¬ net.Open e.listener)
    {server : Handle} {s : Server} (hs : b.servers.find? server = some s)
    (hls : ∀ k e, b.listeners.find? k = some e → e.server = server → k ∈ ls) :
    ∀ l ∈ (net.node s.node).listeners, ¬ net.Open l := by
  intro l hl ho
  obtain ⟨k, e, he, hes, rfl⟩ := h.served i server s (by rwa [assign_same]) l
    (hcalm.lists _ hl) (hcalm.open ho)
  rw [assign_same] at he
  exact hclosed k (hls k e he hes) e he ho

section Ending
variable (h : Fits tables waiting log i b) {server : Handle} {s : Server}

theorem node_without (b : Bridge Tailnet) (server : Handle) :
    (b.without server).net.node = b.net.node :=
  node_closeListeners { b with servers := b.servers.erase server } _

include h

theorem fits_without (server : Handle) : Fits tables waiting log i (b.without server) ∧
    Closes { b with servers := b.servers.erase server } (b.without server)
      (b.listenersOf server) :=
  fits_closeListeners (fits_eraseServer h server) _

variable (hs : b.servers.find? server = some s)
include hs

theorem closed_without : ∀ l ∈ ((b.without server).net.node s.node).listeners,
    ¬ (b.without server).net.Open l :=
  have hcloses := (fits_without h server).2
  closed_of_served h hcloses.calm hcloses.closed hs fun _ e he hes =>
    Bridge.mem_listenersOf.mpr ⟨e, he, hes⟩

/-- By the time its node ends nothing is left of a server that anybody could reach. -/
theorem calm_ending :
    (b.without server).net.Calm (((b.without server).net.close s.node).2.releaseNode s.node) := by
  have hclose := Tailnet.calm_close (fits_without h server).1.wired s.node
  refine hclose.trans (Tailnet.calm_releaseNode hclose.wired fun l hl ho => ?_)
  exact closed_without h hs l (hclose.lists _ hl) (hclose.open ho)

omit hs

theorem fits_close (server : Handle) : Fits tables waiting log i (b.close server).2 := by
  cases hs : b.servers.find? server with
  | none =>
    rw [Bridge.close_none hs]
    exact h
  | some s =>
    rw [Bridge.close_some hs]
    exact (fits_without h server).1.update (calm_ending h hs) (.refl _)

end Ending

theorem calm_releaseNodes (hw : net.Wired) (ns : List NodeId)
    (hc : ∀ n ∈ ns, ∀ l ∈ (net.node n).listeners, ¬ net.Open l) :
    net.Calm (ns.foldl (fun t n => t.releaseNode n) net) := by
  induction ns generalizing net with
  | nil => exact .refl hw
  | cons n ns ih =>
    have hone := Tailnet.calm_releaseNode hw (hc n (List.mem_cons_self ..))
    refine hone.trans (ih hone.wired fun m hm l hl ho => ?_)
    exact hc m (List.mem_cons_of_mem _ hm) l (hone.lists m hl) (hone.open ho)

/-- After a bridge is dropped none of its handles is live. -/
theorem sound_drop (h : Fits tables waiting log i b) (hw : ∀ w ∈ waiting, w.bridge ≠ i) :
    Sound b.drop (assign tables i {}) waiting log := by
  obtain ⟨hfits, hcloses⟩ := fits_closeListeners h b.listeners.handles
  let b₁ := b.closeListeners b.listeners.handles
  have hstreams := Tailnet.calm_withStreams hfits.wired (Nat.le_of_eq (Tailnet.count_closeAll
    b₁.net.streams (b₁.conns.entries.map Conn.descriptor)).symm)
  have hall : ∀ k e, b.listeners.find? k = some e → k ∈ b.listeners.handles := fun k e he =>
    HandleTable.mem_handles.mpr ⟨e, he⟩
  have hnodes : b₁.net.Calm b.drop := by
    refine hstreams.trans (calm_releaseNodes hstreams.wired _ fun n hn l hl ho => ?_)
    obtain ⟨s, hs, rfl⟩ := List.mem_map.mp hn
    obtain ⟨p, hp, rfl⟩ := List.mem_map.mp hs
    rw [hcloses.servers] at hp
    exact closed_of_served h hcloses.calm hcloses.closed (HandleTable.mem_live_iff.mp hp)
      (fun k e he _ => hall k e he) l hl ho
  have hfits : Fits tables waiting log i { b₁ with net := b.drop } := hfits.update hnodes (.refl _)
  refine fits_fewer (b := { b₁ with net := b.drop }) hfits ?_ fun w hmem hi => absurd hi (hw w hmem)
  exact {
    servers := fun _ _ hs => by cases hs
    listeners := fun _ _ he => by cases he
    tidy := HandleTable.tidy_empty _ (by decide)
    gone := fun k e he => by
      have he := (hcloses.listeners k e).mp he
      exact absurd (hall k e he.1) he.2
    feeds := fun _ hk => absurd hk (Nat.not_lt_zero _)
    fed := fun _ _ he => by cases he }

end Handoff.Traffic
