import Handoff.Proofs.Traffic.Quiet

namespace Handoff.Traffic
variable {tables : Nat → Tables} {waiting : List Waiter} {log : List Event} {i : Nat}
  {b : Bridge Tailnet}

/-- What holds of the tables before and after a change of the `i`-th, and of every other. -/
theorem assign_cases {P : Nat → Tables → Tables → Prop} {a a' : Tables} (hi : P i a a')
    (hne : ∀ j c, j ≠ i → P j c c) (j : Nat) :
    P j (assign tables i a j) (assign tables i a' j) := by
  by_cases hj : j = i
  · subst j
    rwa [assign_same, assign_same]
  · rw [assign_of_ne _ _ _ hj, assign_of_ne _ _ _ hj]
    exact hne j _ hj

/-- Tables that differ in the nodes of their servers only. -/
theorem Sound.reserve {net : Tailnet} {tables' : Nat → Tables} (h : Sound net tables waiting log)
    (ht : ∀ j, tables' j = { tables j with servers := (tables' j).servers })
    (nodes : ∀ j k a, (tables' j).servers.find? k = some a → a.node < net.nodes)
    (apart : ∀ j j' k k' a a', (tables' j).servers.find? k = some a →
      (tables' j').servers.find? k' = some a' → a.node = a'.node → j = j' ∧ k = k')
    (served : ∀ j k a, (tables' j).servers.find? k = some a →
      ∀ l ∈ (net.node a.node).listeners, net.Open l →
        ∃ m e, (tables j).listeners.find? m = some e ∧ e.server = k ∧ e.listener = l) :
    Sound net tables' waiting log := by
  obtain ⟨servers, rfl⟩ : ∃ servers : Nat → HandleTable Server,
      tables' = fun j => { tables j with servers := servers j } := ⟨_, funext ht⟩
  exact { h with nodes, apart, served }

/-- A new server has a node of its own, which listens nowhere. -/
theorem fits_newServer (h : Fits tables waiting log i b) :
    Fits tables waiting log i b.newServer.2 := by
  let A := assign tables i b.toTables
  let A' := assign tables i b.newServer.2.toTables
  have hserver : ∀ j k a, (A' j).servers.find? k = some a →
      (A j).servers.find? k = some a ∨ j = i ∧ k = b.newServer.1 ∧ a.node = b.net.nodes := by
    refine assign_cases (P := fun j c c' => ∀ k a, c'.servers.find? k = some a →
      c.servers.find? k = some a ∨ j = i ∧ k = b.newServer.1 ∧ a.node = b.net.nodes) ?_
      fun _ _ _ _ _ => .inl
    intro k a ha
    have ha : (b.servers.allocate ⟨b.net.nodes, {}⟩).2.find? k = some a := ha
    rw [HandleTable.find?_allocate] at ha
    split at ha
    · cases ha
      exact .inr ⟨rfl, by assumption, rfl⟩
    · exact .inl ha
  have hnew : (b.net.node b.net.nodes).listeners = [] := h.unmade _ (Nat.le_refl _)
  have hlt : ∀ j k a, (A j).servers.find? k = some a → a.node < b.net.nodes := h.nodes
  have hcalm : Sound b.newServer.2.net A waiting log :=
    h.still (Tailnet.calm_newNode h.wired)
  refine hcalm.reserve (assign_cases (P := fun _ c c' => c' = { c with servers := c'.servers })
    rfl fun _ _ _ => rfl) ?_ ?_ ?_
  · intro j k a ha
    rcases hserver j k a ha with ha | ⟨-, -, hn⟩
    · exact Nat.lt_succ_of_lt (hlt j k a ha)
    · exact hn ▸ Nat.lt_succ_self _
  · intro j j' k k' a a' ha ha' hn
    rcases hserver j k a ha with ha | ⟨hj, hk, hna⟩ <;>
      rcases hserver j' k' a' ha' with ha' | ⟨hj', hk', hna'⟩
    · exact h.apart j j' k k' a a' ha ha' hn
    · exact absurd (hn.trans hna') (Nat.ne_of_lt (hlt j k a ha))
    · exact absurd (hn.symm.trans hna) (Nat.ne_of_lt (hlt j' k' a' ha'))
    · exact ⟨hj.trans hj'.symm, hk.trans hk'.symm⟩
  · intro j k a ha l hl ho
    rcases hserver j k a ha with ha | ⟨-, -, hn⟩
    · exact hcalm.served j k a ha l hl ho
    · have hl : l ∈ (b.net.node a.node).listeners := hl
      rw [hn, hnew] at hl
      exact absurd hl List.not_mem_nil

theorem mem_dialedTo {l : ListenerId} {d : Descriptor} : d ∈ dialedTo log l ↔
    ∃ target id, .dialed target l id ∈ log ∧ d = ⟨id, .far⟩ := by
  simp only [dialedTo, List.mem_filterMap]
  constructor
  · rintro ⟨x, hx, he⟩
    cases x with
    | dialed target k id =>
      obtain ⟨rfl, hd⟩ := Option.ite_none_right_eq_some.mp he
      exact ⟨target, id, hx, (Option.some.inj hd).symm⟩
    | accepted => cases he
  · rintro ⟨target, id, hm, rfl⟩
    exact ⟨_, hm, if_pos rfl⟩

theorem mem_acceptedAt {l : ListenerId} {p : Nat × Conn} : p ∈ acceptedAt log l ↔
    .accepted l p.1 p.2 ∈ log := by
  simp only [acceptedAt, List.mem_filterMap]
  constructor
  · rintro ⟨x, hx, he⟩
    cases x with
    | dialed => cases he
    | accepted k j c =>
      obtain ⟨rfl, hp⟩ := Option.ite_none_right_eq_some.mp he
      obtain rfl := Option.some.inj hp
      exact hx
  · intro hm
    exact ⟨_, hm, if_pos rfl⟩

section NewListener
variable {net net' : Tailnet} {n : NodeId} {l : ListenerId} (h : Sound net tables waiting log)
  (ho : net.Opens net' n l)
include h ho

theorem unmade_opens (hn : n < net.nodes) (m : NodeId) (hm : net'.nodes ≤ m) :
    (net'.node m).listeners = [] := by
  refine List.eq_nil_iff_forall_not_mem.mpr fun k hk => ?_
  have hm : net.nodes ≤ m := Nat.le_trans ho.nodes hm
  rcases ho.lists m k hk with hk | ⟨rfl, -⟩
  · rw [h.unmade m hm] at hk
    exact List.not_mem_nil hk
  · exact absurd hn (Nat.not_lt.mpr hm)

theorem dialed_opens (target : Endpoint) (k : ListenerId) (id : StreamId)
    (hm : .dialed target k id ∈ log) : k < net'.listeners ∧ id < net'.streams.count ∧
      (net'.Open k → target ∈ (net'.listener k).addresses) := by
  obtain ⟨hk, hid, hs⟩ := h.dialed target k id hm
  have hne := ho.ne_of_lt hk
  refine ⟨ho.listeners ▸ Nat.lt_succ_of_lt hk, Nat.lt_of_lt_of_le hid ho.count, fun hko => ?_⟩
  rw [ho.steady k hne hko]
  exact hs (ho.open_of_ne hne hko)

/-- What was on its way to another listener still is. -/
theorem line_opens {i : Nat} {k : Handle} {e : ListenerEntry}
    (he : (tables i).listeners.find? k = some e) (heo : net'.Open e.listener) :
    Line net' log ((tables i).feed e.feed) i k e := by
  obtain ⟨hlt, hl⟩ := h.entries i k e he
  have hne : e.listener ≠ l := ho.ne_of_lt (hl ▸ h.feeds i _ hlt)
  have hline := h.lines i k e he (ho.open_of_ne hne heo)
  exact { hline with balance := by rw [hline.balance, ho.steady _ hne heo] }

/-- Nothing has gone through the new listener yet. -/
theorem line_new (i : Nat) (k : Handle) {e : ListenerEntry} (he : e.listener = l) :
    Line net' log { listener := l } i k e := by
  have hdial : dialedTo log l = [] :=
    List.eq_nil_iff_forall_not_mem.mpr fun d hd => by
      obtain ⟨target, id, hm, -⟩ := mem_dialedTo.mp hd
      exact absurd rfl (ho.ne_of_lt (h.dialed target l id hm).1)
  have hacc : acceptedAt log l = [] :=
    List.eq_nil_iff_forall_not_mem.mpr fun p hp =>
      absurd rfl (ho.ne_of_lt (h.accepted l _ _ (mem_acceptedAt.mp hp)))
  have hq : (net'.listener l).queued = [] := by
    rw [Tailnet.Listener.queued, ho.backlog]
    rfl
  exact {
    receiver := rfl
    sender := rfl
    marked := fun m hm => absurd hm List.not_mem_nil
    moving := ⟨.entering, .inl rfl⟩
    balance := by
      rw [he, hdial, hacc, hq]
      rfl
    records := fun p hp => by
      rw [he, hacc] at hp
      exact absurd hp List.not_mem_nil }

end NewListener

/-- The `i`-th bridge gets the handle `k` for a listener, with a feed through which nothing has gone
yet. -/
structure Gains (tables tables' : Nat → Tables) (i : Nat) (k : Handle) (e : ListenerEntry) :
    Prop where
  servers : ∀ j, (tables' j).servers = (tables j).servers
  tidy : ∀ j, (tables' j).listeners.Tidy
  added : (tables' i).listeners.find? k = some e
  kept : ∀ j m a, (tables j).listeners.find? m = some a → (tables' j).listeners.find? m = some a
  entry : ∀ j m a, (tables' j).listeners.find? m = some a →
    (tables j).listeners.find? m = some a ∨ j = i ∧ m = k ∧ a = e
  last : e.feed = (tables i).feeds
  more : ∀ j, (tables j).feeds ≤ (tables' j).feeds
  made : e.feed < (tables' i).feeds
  feeds : ∀ j m, m < (tables' j).feeds → m < (tables j).feeds ∨ j = i ∧ m = e.feed
  feed : ∀ j m, m < (tables j).feeds → (tables' j).feed m = (tables j).feed m
  unused : (tables' i).feed e.feed = { listener := e.listener }

theorem gains_addListener (ht : ∀ j, (assign tables i b.toTables j).listeners.Tidy)
    (hr : b.listeners.HasRoom) (server : Handle) (l : ListenerId) :
    Gains (assign tables i b.toTables) (assign tables i (b.addListener server l).2.toTables) i
      (b.addListener server l).1 ⟨server, l, b.feeds⟩ := by
  have htidy : b.listeners.Tidy := by
    have := ht i
    rwa [assign_same] at this
  have hfree : b.listeners.find? (b.addListener server l).1 = none :=
    HandleTable.find?_nextRaw htidy hr
  have hfind : ∀ k, (b.addListener server l).2.listeners.find? k =
      if k = (b.addListener server l).1 then some ⟨server, l, b.feeds⟩
        else b.listeners.find? k := HandleTable.find?_allocate b.listeners _
  exact {
    servers := assign_cases (P := fun _ c c' => c'.servers = c.servers) rfl fun _ _ _ => rfl
    tidy := fun j => assign_cases (P := fun _ c c' => c.listeners.Tidy → c'.listeners.Tidy)
      (fun ht => ht.allocate _) (fun _ _ _ => id) j (ht j)
    added := by rw [assign_same, hfind, if_pos rfl]
    kept := assign_cases (P := fun _ c c' => ∀ m a, c.listeners.find? m = some a →
      c'.listeners.find? m = some a) (fun m a hm => by
        rw [hfind, if_neg]
        · exact hm
        · rintro rfl
          cases hfree.symm.trans hm) fun _ _ _ _ _ => id
    entry := assign_cases (P := fun j c c' => ∀ m a, c'.listeners.find? m = some a →
      c.listeners.find? m = some a ∨ j = i ∧ m = (b.addListener server l).1 ∧ a = _)
      (fun m a hm => by
        rw [hfind] at hm
        split at hm
        · exact .inr ⟨rfl, by assumption, (Option.some.inj hm).symm⟩
        · exact .inl hm) fun _ _ _ _ _ => .inl
    last := by rw [assign_same]
    more := assign_cases (P := fun _ c c' => c.feeds ≤ c'.feeds) (Nat.le_succ _)
      fun _ _ _ => Nat.le_refl _
    made := by
      rw [assign_same]
      exact Nat.lt_succ_self _
    feeds := assign_cases (P := fun j c c' => ∀ m, m < c'.feeds → m < c.feeds ∨ j = i ∧ m = b.feeds)
      (fun m hm => (Nat.lt_succ_iff_lt_or_eq.mp hm).imp id fun hm => ⟨rfl, hm⟩)
      fun _ _ _ _ => .inl
    feed := assign_cases (P := fun _ c c' => ∀ m, m < c.feeds → c'.feed m = c.feed m)
      (fun m hm => assign_of_ne _ _ _ (Nat.ne_of_lt hm)) fun _ _ _ _ _ => rfl
    unused := by
      rw [assign_same]
      exact assign_same .. }

/-- A listener that a server's node has just opened gets a handle and a feed of its own. -/
theorem Sound.gains {net net' : Tailnet} {tables' : Nat → Tables} {k : Handle} {e : ListenerEntry}
    {s : Server} (h : Sound net tables waiting log) (hg : Gains tables tables' i k e)
    (hs : (tables i).servers.find? e.server = some s) (ho : net.Opens net' s.node e.listener) :
    Sound net' tables' waiting log where
  wired := ho.wired
  owned := ho.owned h.owned
  tidy := hg.tidy
  unmade := unmade_opens h ho (h.nodes i e.server s hs)
  nodes := fun j m a ha =>
    Nat.lt_of_lt_of_le (h.nodes j m a (hg.servers j ▸ ha)) ho.nodes
  apart := fun j j' m m' a a' ha ha' =>
    h.apart j j' m m' a a' (hg.servers j ▸ ha) (hg.servers j' ▸ ha')
  feeds := fun j m hm => by
    rw [ho.listeners]
    rcases hg.feeds j m hm with hm | ⟨rfl, rfl⟩
    · rw [hg.feed j m hm]
      exact Nat.lt_succ_of_lt (h.feeds j m hm)
    · rw [hg.unused, ho.made]
      exact Nat.lt_succ_self _
  split := fun j j' m m' hm hm' hl => by
    rcases hg.feeds j m hm with hm | ⟨rfl, rfl⟩ <;>
      rcases hg.feeds j' m' hm' with hm' | ⟨rfl, rfl⟩
    · rw [hg.feed j m hm, hg.feed j' m' hm'] at hl
      exact h.split j j' m m' hm hm' hl
    · rw [hg.feed j m hm, hg.unused] at hl
      exact absurd hl (ho.ne_of_lt (h.feeds j m hm))
    · rw [hg.unused, hg.feed j' m' hm'] at hl
      exact absurd hl.symm (ho.ne_of_lt (h.feeds j' m' hm'))
    · exact ⟨rfl, rfl⟩
  entries := fun j m a hm => by
    rcases hg.entry j m a hm with hm | ⟨rfl, -, rfl⟩
    · obtain ⟨hlt, hl⟩ := h.entries j m a hm
      exact ⟨Nat.lt_of_lt_of_le hlt (hg.more j), by rw [hg.feed j _ hlt, hl]⟩
    · exact ⟨hg.made, by rw [hg.unused]⟩
  single := fun j m m' a a' hm hm' hf => by
    rcases hg.entry j m a hm with hm | ⟨rfl, rfl, rfl⟩ <;>
      rcases hg.entry j m' a' hm' with hm' | ⟨hj, rfl, rfl⟩
    · exact h.single j m m' a a' hm hm' hf
    · subst hj
      exact absurd (hf.trans hg.last) (Nat.ne_of_lt (h.entries j m a hm).1)
    · exact absurd (hf.symm.trans hg.last) (Nat.ne_of_lt (h.entries j m' a' hm').1)
    · rfl
  served := fun j m a ha l hl hlo => by
    rcases ho.lists a.node l hl with hl | ⟨hn, rfl⟩
    · have hold := ho.open_of_ne (ho.ne_of_lt (h.wired.listed _ l hl)) hlo
      obtain ⟨m', a', hm', ha'⟩ := h.served j m a (hg.servers j ▸ ha) l hl hold
      exact ⟨m', a', hg.kept j m' a' hm', ha'⟩
    · obtain ⟨rfl, rfl⟩ := h.apart j i m e.server a s (hg.servers j ▸ ha) hs hn
      exact ⟨k, e, hg.added, rfl, rfl⟩
  waits := fun w hw => by
    obtain ⟨hlt, hwait⟩ := h.waits w hw
    refine ⟨Nat.lt_of_lt_of_le hlt (hg.more _), fun m a hm hf => ?_⟩
    rcases hg.entry w.bridge m a hm with hm | ⟨rfl, -, rfl⟩
    · exact hwait m a hm hf
    · exact absurd (hf.symm.trans hg.last) (Nat.ne_of_lt hlt)
  lines := fun j m a hm hmo => by
    rcases hg.entry j m a hm with hm | ⟨rfl, rfl, rfl⟩
    · rw [hg.feed j _ (h.entries j m a hm).1]
      exact line_opens h ho hm hmo
    · rw [hg.unused]
      exact line_new h ho j _ rfl
  dialed := dialed_opens h ho
  accepted := fun l j c hm => ho.listeners ▸ Nat.lt_succ_of_lt (h.accepted l j c hm)
  fresh := h.fresh

theorem fits_addListener (h : Fits tables waiting log i b) (hr : b.listeners.HasRoom)
    {server : Handle} {s : Server} (hs : b.servers.find? server = some s) {net : Tailnet}
    {l : ListenerId} (ho : b.net.Opens net s.node l) :
    Fits tables waiting log i ({ b with net }.addListener server l).2 :=
  Sound.gains h (gains_addListener (b := { b with net }) h.tidy hr server l)
    (by rwa [assign_same]) ho

/-- All that a listen by a server can come to. -/
theorem listen_worded (b : Bridge Tailnet) (server : Handle) (network address : String)
    (funnel : Option FunnelMode) :
    (∃ e, b.listen server network address funnel = (.error e, b)) ∨
    ∃ s, b.servers.find? server = some s ∧
      ((∃ f, (b.net.listen s.node network address funnel).1 = .error f ∧
        b.listen server network address funnel =
          ({ b with net := (b.net.listen s.node network address funnel).2 } :
            Bridge Tailnet).fail server f.toFailure) ∨
      ∃ l, (b.net.listen s.node network address funnel).1 = .ok l ∧
        b.listen server network address funnel =
          (({ b with net := (b.net.listen s.node network address funnel).2 } :
            Bridge Tailnet).addListener server l).map .ok id) := by
  unfold Bridge.listen
  rcases withNode_worded b server (fun n => Network.listen n network address funnel)
    (fun n => Tailnet.listen n network address funnel) fun _ _ => rfl with
    ⟨e, he⟩ | ⟨s, hs, ⟨f, hf, he⟩ | ⟨l, hl, he⟩⟩
  · exact .inl ⟨e, by rw [he]⟩
  · exact .inr ⟨s, hs, .inl ⟨f, hf, by rw [he]; rfl⟩⟩
  · exact .inr ⟨s, hs, .inr ⟨l, hl, by rw [he]⟩⟩

/-- A listen by a server opens a listener of its node and adds it, or it leaves every route as it
is and changes nothing that matters. -/
theorem listen_outcomes (hw : b.net.Wired) (server : Handle) (network address : String)
    (funnel : Option FunnelMode) :
    (∃ e b', b.listen server network address funnel = (.error e, b') ∧ Quiet b b' ∧
      b'.net.registry.routes = b.net.registry.routes) ∨
    ∃ a l net, b.servers.find? server = some a ∧ b.net.Opens net a.node l ∧
      b.listen server network address funnel =
        (({ b with net } : Bridge Tailnet).addListener server l).map .ok id := by
  rcases listen_worded b server network address funnel with
    ⟨e, he⟩ | ⟨a, ha, hop⟩
  · exact .inl ⟨e, b, he, .refl hw, rfl⟩
  · have hlisten := Tailnet.listen_cases hw a.node network address funnel
    rcases hop with ⟨f, hf, he⟩ | ⟨l, hl, he⟩
    · rcases hlisten with ⟨_, -, hc, hroutes⟩ | ⟨l, hl, -⟩
      · have hq : Quiet b { b with net := (b.net.listen a.node network address funnel).2 } :=
          ⟨hc, .refl _⟩
        exact .inl ⟨_, _, he,
          hq.trans (quiet_record hq.calm.wired server f.toFailure.message), hroutes⟩
      · cases hf.symm.trans hl
    · rcases hlisten with ⟨f, hf, -, -⟩ | ⟨k, hk, ho⟩
      · cases hf.symm.trans hl
      · obtain rfl : k = l := Except.ok.inj (hk.symm.trans hl)
        exact .inr ⟨a, k, _, ha, ho, he⟩

theorem fits_listen (h : Fits tables waiting log i b) (hroom : b.listeners.HasRoom)
    (server : Handle) (network address : String) (funnel : Option FunnelMode) :
    Fits tables waiting log i (b.listen server network address funnel).2 := by
  rcases listen_outcomes h.wired server network address funnel with
    ⟨e, b', he, hq, -⟩ | ⟨a, l, net, ha, ho, he⟩
  · rw [he]
    exact h.update hq.calm hq.alike
  · rw [he]
    exact fits_addListener h hroom ha ho

/-- A node without a bridge opens a listener, which no handle stands for. -/
theorem Sound.opens {net net' : Tailnet} {n : NodeId} {l : ListenerId}
    (h : Sound net tables waiting log) (ho : net.Opens net' n l) (hn : n < net.nodes)
    (hloose : ∀ i k a, (tables i).servers.find? k = some a → a.node ≠ n) :
    Sound net' tables waiting log where
  wired := ho.wired
  owned := ho.owned h.owned
  tidy := h.tidy
  unmade := unmade_opens h ho hn
  nodes := fun i k a ha => Nat.lt_of_lt_of_le (h.nodes i k a ha) ho.nodes
  apart := h.apart
  feeds := fun i k hk => ho.listeners ▸ Nat.lt_succ_of_lt (h.feeds i k hk)
  split := h.split
  entries := h.entries
  single := h.single
  served := fun i k a ha m hm hmo => by
    rcases ho.lists a.node m hm with hm | ⟨hna, -⟩
    · exact h.served i k a ha m hm (ho.open_of_ne (ho.ne_of_lt (h.wired.listed _ m hm)) hmo)
    · exact absurd hna (hloose i k a ha)
  waits := h.waits
  lines := fun i k e he heo => line_opens h ho he heo
  dialed := dialed_opens h ho
  accepted := fun k j c hm => ho.listeners ▸ Nat.lt_succ_of_lt (h.accepted k j c hm)
  fresh := h.fresh

end Handoff.Traffic
