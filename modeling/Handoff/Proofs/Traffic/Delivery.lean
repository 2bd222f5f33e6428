import Handoff.Proofs.Traffic.Reachable

namespace Handoff.Traffic
variable {b b' : Bridge Tailnet} {place : Waiting} {h k : Handle} {i : Nat} {s : Traffic}
  {e : ListenerEntry} {log : List Event}

structure Took (b : Bridge Tailnet) (k : Handle) (b' : Bridge Tailnet) : Prop where
  conn : ∃ c, b'.conns.find? k = some c
  unmoved : Unmoved b b'

theorem Took.keep (h : Took b k b') (r : Reaction) : Took b k (b'.keep r) :=
  ⟨h.conn, h.unmoved.trans ⟨rfl, rfl, fun _ => rfl, rfl⟩⟩

theorem Took.letGo (h : Took b k b') (m : FeedId) : Took b k (b'.letGo m) :=
  ⟨h.conn, h.unmoved.trans ⟨rfl, rfl, fun n => listener_sweep _ m n, rfl⟩⟩

theorem took_takeNext (ht : b.takeNext place = (.ok k, b')) : Took b k b' := by
  have hu := unmoved_takeNext b place
  rw [ht] at hu
  refine ⟨?_, hu⟩
  unfold Bridge.takeNext at ht
  dsimp only at ht
  split at ht
  · have he := congrArg Prod.fst ht
    rw [Bridge.refuse_fst] at he
    cases he
  · cases ht
    exact ⟨_, HandleTable.find?_allocated ..⟩

theorem took_acceptNonblocking (ht : b.acceptNonblocking h = (.ok k, b')) : Took b k b' := by
  unfold Bridge.acceptNonblocking at ht
  split at ht
  · cases ht
  · exact took_takeNext ht

theorem took_resumeAccept (ht : b.resumeAccept place = (.done (.ok k), b')) : Took b k b' := by
  unfold Bridge.resumeAccept at ht
  split at ht
  · have hr := congrArg Prod.fst ht
    have hb := congrArg Prod.snd ht
    exact took_takeNext (Prod.ext (Acceptance.done.inj hr) hb)
  · cases ht

theorem took_resumeAcceptReady (ht : b.resumeAcceptReady place = (.done (.ok k), b')) :
    Took b k b' := by
  unfold Bridge.resumeAcceptReady at ht
  split at ht
  · split at ht
    · cases ht
    · rename_i r b₁ _ he
      cases ht
      exact took_acceptNonblocking he
  · cases ht

theorem took_accept (ht : b.accept h = (.done (.ok k), b')) : Took b k b' := by
  unfold Bridge.accept at ht
  split at ht
  · cases ht
  · exact took_resumeAccept ht

theorem took_acceptReady (ht : b.acceptReady h = (.done (.ok k), b')) : Took b k b' := by
  have hu := unmoved_acceptNonblocking b h
  unfold Bridge.acceptReady at ht
  split at ht
  · rename_i b₁ he
    rw [he] at hu
    split at ht
    · cases ht
    · have hk := took_resumeAcceptReady ht
      exact ⟨hk.conn, hu.trans hk.unmoved⟩
  · rename_i r b₁ _ he
    cases ht
    exact took_acceptNonblocking he

def acceptVerbs (h : Handle) : List Verb :=
  [.accept h, .acceptNonblocking h, .acceptReady h]

theorem took_perform {verb : Verb} (hv : verb ∈ acceptVerbs h)
    (hp : b.perform verb = (.ends (.ok (.handle k)), b')) : Took b k b' := by
  have hdone : ∀ {a : Acceptance}, a.reaction = .ends (.ok (.handle k)) → a = .done (.ok k) := by
    intro a ha
    rcases a with (_ | x) | _
    · cases ha
    · obtain rfl := Reply.handle.inj (Except.ok.inj (Reaction.ends.inj ha))
      rfl
    · cases ha
  have hr := congrArg Prod.fst hp
  have hb := congrArg Prod.snd hp
  simp only [acceptVerbs, List.mem_cons, List.not_mem_nil, or_false] at hv
  rcases hv with rfl | rfl | rfl
  · exact took_accept (Prod.ext (hdone hr) hb)
  · replace hr : (b.acceptNonblocking h).1.map Reply.handle = .ok (.handle k) :=
      Reaction.ends.inj hr
    cases hn : (b.acceptNonblocking h).1 with
    | error x =>
      rw [hn] at hr
      cases hr
    | ok x =>
      rw [hn] at hr
      obtain rfl := Reply.handle.inj (Except.ok.inj hr)
      exact took_acceptNonblocking (Prod.ext hn hb)
  · exact took_acceptReady (Prod.ext (hdone hr) hb)

/-- What an accept that gave `k` leaves in the log. -/
theorem events_took {verb : Verb} (hv : verb ∈ acceptVerbs h) {c : Conn}
    (he : b.listeners.find? h = some e) (hl : (b.feed e.feed).listener = e.listener)
    (hc : b'.conns.find? k = some c) :
    events b i verb (.ends (.ok (.handle k))) b' = [.accepted e.listener i c] := by
  simp only [acceptVerbs, List.mem_cons, List.not_mem_nil, or_false] at hv
  rcases hv with rfl | rfl | rfl <;>
    simp only [events, Bridge.placeAt_some he, acceptEvent, hc, hl]

/-- An accept by the handle `h` of the bridge `i` gives the connection `k`: at once, or to somebody
who waited at the listener's feed. -/
inductive Takes (s : Traffic) (i : Nat) (h : Handle) (feed : FeedId) (k : Handle) : Traffic → Prop
  | call (verb : Verb) : verb ∈ acceptVerbs h →
    ((s.bridge i).perform verb).1 = .ends (.ok (.handle k)) → Takes s i h feed k (s.perform i verb)
  | wait (w : Waiter) : w ∈ s.waiting → w.bridge = i → w.place.feed = feed →
    (if w.ready then (s.bridge i).resumeAcceptReady w.place
      else (s.bridge i).resumeAccept w.place).1 = .done (.ok k) → Takes s i h feed k (s.resume w)

/-- Somebody who waits and gets a connection leaves, and the log has what it got. -/
theorem resume_takes {w : Waiter}
    (he : (s.tables w.bridge).listeners.find? w.place.listener = some e)
    (hf : w.place.feed = e.feed)
    (hr : (if w.ready then (s.bridge w.bridge).resumeAcceptReady w.place
      else (s.bridge w.bridge).resumeAccept w.place).1 = .done (.ok k)) :
    ∃ b' place, Took (s.bridge w.bridge) k b' ∧ place.feed = e.feed ∧ s.resume w =
      { toFleet := s.setBridge w.bridge b'
        waiting := s.waiting.erase w
        log := s.log ++ acceptEvent (s.bridge w.bridge).feed place w.bridge k b' } := by
  unfold resume Bridge.resume
  cases hw : w.ready with
  | true =>
    rw [hw, if_pos rfl] at hr
    have ht := took_resumeAcceptReady (Prod.ext hr rfl)
    revert hr ht
    simp only [if_true, Bridge.placeAt_some (b := s.bridge w.bridge) he]
    generalize (s.bridge w.bridge).resumeAcceptReady w.place = p
    obtain ⟨a, b'⟩ := p
    rintro rfl ht
    exact ⟨_, _, ht.letGo w.place.feed, rfl, rfl⟩
  | false =>
    rw [hw, if_neg Bool.false_ne_true] at hr
    have ht := took_resumeAccept (Prod.ext hr rfl)
    revert hr ht
    simp only [Bool.false_eq_true, if_false]
    generalize (s.bridge w.bridge).resumeAccept w.place = p
    obtain ⟨a, b'⟩ := p
    rintro rfl ht
    exact ⟨_, _, ht.letGo w.place.feed, hf, rfl⟩

/-- A connection that is taken is new in the log, and the listener is open as it was. -/
theorem takes_logs {s' : Traffic} (hs : s.Intact) (he : (s.tables i).listeners.find? h = some e)
    (ht : Takes s i h e.feed k s') :
    s'.Intact ∧ (s'.tables i).listeners.find? h = some e ∧ s'.net.listener = s.net.listener ∧
      ∃ c, (s'.tables i).conns.find? k = some c ∧
        s'.log = s.log ++ [.accepted e.listener i c] := by
  have hl := (hs.entries i h e he).2
  have hafter : ∀ {b : Bridge Tailnet}, Took (s.bridge i) k b →
      (assign s.tables i b.toTables i).listeners.find? h = some e ∧
        ∃ c, b.conns.find? k = some c ∧
          (assign s.tables i b.toTables i).conns.find? k = some c := by
    intro b hb
    obtain ⟨c, hc⟩ := hb.conn
    rw [assign_same, hb.unmoved.listeners]
    exact ⟨he, c, hc, hc⟩
  cases ht with
  | call verb hv hr =>
    have htook : Took (s.bridge i) k ((s.bridge i).perform verb).2 :=
      took_perform hv (Prod.ext hr rfl)
    obtain ⟨hentry, c, hc, hconn⟩ := hafter (htook.keep ((s.bridge i).perform verb).1)
    have hev := events_took (b := s.bridge i) (i := i) hv he hl hc
    refine ⟨intact_perform hs i verb ?_, hentry, htook.unmoved.net, c, hconn, ?_⟩
    · rintro _ _ _ _ rfl
      simp [acceptVerbs] at hv
    · change s.log ++ events (s.bridge i) i verb ((s.bridge i).perform verb).1
        ((s.bridge i).perform verb).2 = _
      rw [hr]
      exact congrArg (s.log ++ ·) hev
  | wait w hw hwi hwf hr =>
    subst hwi
    obtain ⟨rfl, -⟩ := (hs.waits w hw).2 h e he hwf.symm
    have hintact := intact_resume hs hw
    obtain ⟨b', place, htook, hplace, heq⟩ := resume_takes he hwf hr
    obtain ⟨hentry, c, hc, hconn⟩ := hafter htook
    rw [heq] at hintact ⊢
    refine ⟨hintact, hentry, htook.unmoved.net, c, hconn, ?_⟩
    simp only [acceptEvent, hc, hplace]
    rw [show ((s.bridge w.bridge).feed e.feed).listener = e.listener from hl]

/-- What the open listener of the entry `e`, whose handle on the bridge `i` is `h`, delivers. -/
structure Delivers (s : Traffic) (i : Nat) (h : Handle) (e : ListenerEntry) : Prop where
  /-- No connection is lost and none overtakes another, wherever it is on its way. -/
  inOrder : dialedTo s.log e.listener =
    (acceptedAt s.log e.listener).map (·.2.descriptor) ++
      ((s.tables i).feed e.feed).channel.pending ++
      ((s.tables i).feed e.feed).pump.held.toList ++ (s.net.listener e.listener).queued
  once : (dialedTo s.log e.listener).Nodup
  own : ∀ l, l ≠ e.listener → (dialedTo s.log e.listener).Disjoint (dialedTo s.log l)
  addressed : ∀ target id, .dialed target e.listener id ∈ s.log →
    target ∈ (s.net.listener e.listener).addresses
  recorded : ∀ p ∈ acceptedAt s.log e.listener,
    p.1 = i ∧ p.2.listener = some h ∧ p.2.server = e.server
  /-- A dial that leads to the listener and succeeds is the last from then on. -/
  dial : ∀ j server network address a target k b', (s.tables j).servers.find? server = some a →
    s.net.destination a.node network address = some (target, e.listener) →
    (s.bridge j).dial server network address = (.ok k, b') →
    ∃ c, b'.conns.find? k = some c ∧ c.descriptor.side = .near ∧
      (s.perform j (.dial server network address)).log =
        s.log ++ [.dialed target e.listener c.descriptor.stream]
  dialByNode : ∀ n network address target d net,
    s.net.destination n network address = some (target, e.listener) →
    s.net.dial n network address = (.ok d, net) →
    d.side = .near ∧ (s.use n (.dial network address)).log =
      s.log ++ [.dialed target e.listener d.stream]
  /-- An accept gives the first connection that none gave before. -/
  accept : ∀ k s', Takes s i h e.feed k s' → ∃ c, (s'.tables i).conns.find? k = some c ∧
    s'.log = s.log ++ [.accepted e.listener i c] ∧
    (dialedTo s.log e.listener)[(acceptedAt s.log e.listener).length]? = some c.descriptor
  wouldBlock : ((s.bridge i).acceptNonblocking h).1 = .error .wouldBlock ↔
    ((s.tables i).feed e.feed).channel.queue = []

/-- Each stream was dialed to one listener. -/
theorem dialed_unique (hf : (streamsOf log).Nodup) {target target' : Endpoint}
    {l l' : ListenerId} {id : StreamId} (h : .dialed target l id ∈ log)
    (h' : .dialed target' l' id ∈ log) : l = l' := by
  induction log with
  | nil => cases h
  | cons x log ih =>
    have hmem : ∀ {target : Endpoint} {l : ListenerId}, .dialed target l id ∈ log →
        id ∈ streamsOf log := fun hm => List.mem_filterMap.mpr ⟨_, hm, rfl⟩
    rcases List.mem_cons.mp h with hx | hm <;> rcases List.mem_cons.mp h' with hx' | hm'
    · cases hx.trans hx'.symm
      rfl
    · subst hx
      exact absurd (hmem hm') (List.nodup_cons.mp hf).1
    · subst hx'
      exact absurd (hmem hm) (List.nodup_cons.mp hf).1
    · exact ih (hf.sublist (List.Sublist.filterMap _ (List.sublist_cons_self x log))) hm hm'

theorem streams_dialedTo (log : List Event) (l : ListenerId) :
    ((dialedTo log l).map Descriptor.stream).Sublist (streamsOf log) := by
  induction log with
  | nil => exact .slnil
  | cons x log ih =>
    cases x with
    | accepted => exact ih
    | dialed target k id =>
      by_cases hk : k = l
      · have hd : dialedTo (.dialed target k id :: log) l = ⟨id, .far⟩ :: dialedTo log l := by
          simp [dialedTo, hk]
        rw [hd]
        exact ih.cons_cons id
      · have hd : dialedTo (.dialed target k id :: log) l = dialedTo log l := by
          simp [dialedTo, hk]
        rw [hd]
        exact ih.cons id

/-- Whenever a connection is taken, it is the next of those that were dialed. -/
theorem next_taken {s' : Traffic} {c : Conn} (hs' : s'.Intact)
    (he : (s'.tables i).listeners.find? h = some e) (ho : s'.net.Open e.listener)
    (hlog : s'.log = s.log ++ [.accepted e.listener i c]) :
    (dialedTo s.log e.listener)[(acceptedAt s.log e.listener).length]? = some c.descriptor := by
  have hb := (hs'.lines i h e he ho).balance
  have hdial : dialedTo [.accepted e.listener i c] e.listener = [] := rfl
  have hacc : acceptedAt [.accepted e.listener i c] e.listener = [(i, c)] := by
    simp [acceptedAt]
  rw [hlog, dialedTo_append, acceptedAt_append, hdial, hacc, List.append_nil] at hb
  rw [hb]
  simp

/-- An accept at an open listener has nothing to take only when its channel is empty. -/
theorem wouldBlock_iff (hs : s.Intact) (he : (s.tables i).listeners.find? h = some e)
    (ho : s.net.Open e.listener) : ((s.bridge i).acceptNonblocking h).1 = .error .wouldBlock ↔
      ((s.tables i).feed e.feed).channel.queue = [] := by
  have hline := hs.lines i h e he ho
  unfold Bridge.acceptNonblocking
  rw [Bridge.placeAt_some (b := s.bridge i) he]
  dsimp only
  constructor
  · intro hb
    have hres := Bridge.takeNext_wouldBlock_iff.mp hb
    exact Channel.queue_of_wouldBlock hres
  · intro hq
    refine Bridge.takeNext_wouldBlock_iff.mpr ?_
    change ((s.tables i).feed e.feed).channel.receive.result = _
    rw [Channel.receive_empty hq, hline.sender, hline.receiver]
    rfl

theorem delivers_of_reachable (hr : Reachable s) (he : (s.tables i).listeners.find? h = some e)
    (ho : s.net.Open e.listener) : Delivers s i h e := by
  have hs := hr.intact
  have hline := hs.lines i h e he ho
  exact {
    inOrder := hline.balance
    once := (hs.fresh.sublist (streams_dialedTo s.log e.listener)).of_map
    own := fun l hl d hd hd' => by
      obtain ⟨target, id, hm, rfl⟩ := mem_dialedTo.mp hd
      obtain ⟨target', id', hm', hid⟩ := mem_dialedTo.mp hd'
      cases hid
      exact hl (dialed_unique hs.fresh hm' hm)
    addressed := fun target id hm => (hs.dialed target e.listener id hm).2.2 ho
    recorded := hline.records
    dial := fun j server network address a target k b' ha hto hd => by
      rcases dial_outcomes (b := s.bridge j) hs.wired server network address with
        ⟨_, _, hx, -⟩ | ⟨a', target', l, id, net, conns, k', c, ha', hto', -, hx, hc, hdesc⟩
      · rw [hx] at hd
        cases hd
      · obtain rfl := Option.some.inj (ha.symm.trans ha')
        cases hto.symm.trans hto'
        have hev : events (s.bridge j) j (.dial server network address)
            (.ends (.ok (.handle k'))) { s.bridge j with net, conns } =
              [.dialed target e.listener c.descriptor.stream] := events_dial ha hto' hc
        rw [hx] at hd
        cases hd
        refine ⟨c, hc, by rw [hdesc], ?_⟩
        change s.log ++ events (s.bridge j) j _
          (.ends (((s.bridge j).dial server network address).1.map .handle))
          ((s.bridge j).dial server network address).2 = _
        rw [hx]
        exact congrArg (s.log ++ ·) hev
    dialByNode := fun n network address target d net hto hd => by
      rcases Tailnet.dial_cases hs.wired n network address with
        ⟨f, hf, -⟩ | ⟨target', l, id, hid, hto', -⟩
      · rw [hd] at hf
        cases hf
      · cases hto.symm.trans hto'
        rw [hd] at hid
        cases hid
        refine ⟨rfl, ?_⟩
        dsimp only [use]
        rw [hd]
        dsimp only
        rw [dialEvent, hto]
    accept := fun k s' ht => by
      obtain ⟨hs', he', hnet, c, hc, hlog⟩ := takes_logs hs he ht
      refine ⟨c, hc, hlog, next_taken hs' he' ?_ hlog⟩
      rwa [Tailnet.Open, hnet]
    wouldBlock := wouldBlock_iff hs he ho }

/-- A server dials itself twice. One connection has been accepted, and the pump holds the other. -/
def dialedTwice : Traffic :=
  let s := newServer { net := {} } 0
  let s := s.perform 0 (.listen ⟨2752513⟩ "tcp" ":80" none)
  let s := s.perform 0 (.dial ⟨2752513⟩ "tcp" "100.64.0.1:80")
  let s := s.perform 0 (.dial ⟨2752513⟩ "tcp" "100.64.0.1:80")
  let s := (((s.pump 0 0).pump 0 0).pump 0 0).pump 0 0
  let s := ((s.pump 0 0).pump 0 0).pump 0 0
  s.perform 0 (.acceptNonblocking ⟨2818049⟩)

theorem reachable_dialedTwice : Reachable dialedTwice := by
  have hnew : Reachable (newServer { net := {} } 0) :=
    .next (.start "bridge.ts.net" .standard true .root) (.newServer 0)
  have hlisten := hnew.next (.perform 0 (.listen ⟨2752513⟩ "tcp" ":80" none) fun _ _ _ _ _ =>
    ⟨2818049, by decide, by decide +kernel⟩)
  have hdial := hlisten.next
    (.perform 0 (.dial ⟨2752513⟩ "tcp" "100.64.0.1:80") fun _ _ _ _ he => by cases he)
  have hagain := hdial.next
    (.perform 0 (.dial ⟨2752513⟩ "tcp" "100.64.0.1:80") fun _ _ _ _ he => by cases he)
  have hfirst := (((hagain.next (.pump 0 0 (by decide +kernel))).next
    (.pump 0 0 (by decide +kernel))).next (.pump 0 0 (by decide +kernel))).next
      (.pump 0 0 (by decide +kernel))
  have hsecond := ((hfirst.next (.pump 0 0 (by decide +kernel))).next
    (.pump 0 0 (by decide +kernel))).next (.pump 0 0 (by decide +kernel))
  exact hsecond.next (.perform 0 (.acceptNonblocking ⟨2818049⟩) fun _ _ _ _ he => by cases he)

theorem delivers_of_dialedTwice :
    dialedTo dialedTwice.log 0 = [⟨0, .far⟩, ⟨1, .far⟩] ∧
      (acceptedAt dialedTwice.log 0).map (·.2.descriptor) = [⟨0, .far⟩] ∧
      Delivers dialedTwice 0 ⟨2818049⟩ ⟨⟨2752513⟩, 0, 0⟩ :=
  ⟨by decide +kernel, by decide +kernel,
    delivers_of_reachable reachable_dialedTwice (by decide +kernel) (by decide +kernel)⟩

end Handoff.Traffic
