import Handoff.Proofs.Bridge.Records
import Handoff.Proofs.Traffic.Pumping

namespace Handoff.Traffic
variable {tables : Nat → Tables} {waiting : List Waiter} {log : List Event} {i : Nat}
  {b : Bridge Tailnet} {place : Waiting}

/-- Whoever waits at `place` waits for the listener that its handle stands for, if any does. -/
def Placed (b : Bridge Tailnet) (place : Waiting) : Prop :=
  place.feed < b.feeds ∧ ∀ h e, b.listeners.find? h = some e → e.feed = place.feed →
    h = place.listener ∧ e.server = place.server

theorem placeAt_ok {l : Handle} (h : b.placeAt l = .ok place) :
    ∃ e, b.listeners.find? l = some e ∧ place = ⟨l, e.server, e.feed⟩ := by
  unfold Bridge.placeAt at h
  cases hg : b.listeners.get l with
  | error e => rw [hg] at h; cases h
  | ok e =>
    rw [hg] at h
    cases h
    exact ⟨e, HandleTable.get_ok_iff.mp hg, rfl⟩

theorem placed_of_placeAt (h : Fits tables waiting log i b) {l : Handle}
    (hp : b.placeAt l = .ok place) : Placed b place := by
  obtain ⟨e, he, rfl⟩ := placeAt_ok hp
  have hent := h.entries i l e (by rwa [assign_same])
  rw [assign_same] at hent
  refine ⟨hent.1, fun k e' he' hf => ?_⟩
  obtain rfl := h.single i k l e' e (by rwa [assign_same]) (by rwa [assign_same]) hf
  obtain rfl := Option.some.inj (he'.symm.trans he)
  exact ⟨rfl, rfl⟩

def gain (feed : FeedId → Feed) (place : Waiting) (i : Nat) (b : Bridge Tailnet) :
    Except BridgeError Handle → List Event
  | .ok h => acceptEvent feed place i h b
  | .error _ => []

theorem AlikeBut.alike {l : ListenerId} {a c c' : Tables} (h : AlikeBut l a c) (h' : Alike c c') :
    AlikeBut l a c' :=
  ⟨h.toShaped.trans h'.toShaped, fun k hk => by rw [h'.feed, h.feed k hk]⟩

section Receive
variable {net : Tailnet} {f : Feed} {h : Handle} {e : ListenerEntry}
  (hline : Line net log f i h e)
include hline

/-- A receive that gives no connection takes nothing off the channel. -/
theorem Line.refused {x : RecvError} (hr : f.channel.receive.result = .error x) :
    { f with channel := f.channel.receive.channel } = f := by
  have hq : f.channel.queue = [] := by
    cases hq : f.channel.queue with
    | nil => rfl
    | cons m rest =>
      obtain ⟨d, rfl⟩ := hline.marked m (hq ▸ List.mem_cons_self ..)
      rw [Channel.receive_marked hq] at hr
      cases hr
  rw [Channel.receive_empty hq]

/-- A connection that a receive gives was the first on the channel, and is the last that an accept
took. -/
theorem Line.taken {c : Conn} (hr : f.channel.receive.result = .ok c.descriptor)
    (hl : c.listener = some h) (hs : c.server = e.server) :
    Line net (log ++ [.accepted e.listener i c]) { f with channel := f.channel.receive.channel }
      i h e := by
  cases hq : f.channel.queue with
  | nil =>
    rw [Channel.receive_empty hq] at hr
    cases hr
  | cons m rest =>
    obtain ⟨d, rfl⟩ := hline.marked m (hq ▸ List.mem_cons_self ..)
    rw [Channel.receive_marked hq] at hr ⊢
    have hd : d = c.descriptor := Except.ok.inj hr
    have hdial : dialedTo [.accepted e.listener i c] e.listener = [] := rfl
    have hacc : acceptedAt [.accepted e.listener i c] e.listener = [(i, c)] := by
      simp [acceptedAt]
    have hpend : f.channel.pending = c.descriptor :: rest.flatMap (·.descriptors) := by
      rw [Channel.pending, hq, ← hd]
      rfl
    exact {
      receiver := hline.receiver
      sender := hline.sender
      marked := fun m hm => hline.marked m (hq ▸ List.mem_cons_of_mem _ hm)
      moving := hline.moving
      balance := by
        rw [dialedTo_append, acceptedAt_append, hdial, hacc, hline.balance, hpend]
        simp only [List.map_append, List.map_cons, List.map_nil, List.append_assoc,
          List.cons_append, List.nil_append, List.append_nil]
        rfl
      records := fun p hmem => by
        rw [acceptedAt_append, hacc] at hmem
        rcases List.mem_append.mp hmem with hmem | hmem
        · exact hline.records p hmem
        · rw [List.mem_singleton.mp hmem]
          exact ⟨rfl, hl, hs⟩ }

end Receive

/-- Taking the next connection: what comes off the channel is what an accept gives, and it is
recorded with the listener and the server of the place. -/
theorem fits_takeNext (h : Fits tables waiting log i b) (hp : Placed b place) :
    Fits tables waiting (log ++ gain b.feed place i (b.takeNext place).2 (b.takeNext place).1) i
      (b.takeNext place).2 := by
  let f := b.feed place.feed
  let receipt := f.channel.receive
  let b₁ : Bridge Tailnet := ({ b with net := { b.net with
    streams := b.net.streams.closeAll receipt.dropped } } : Bridge Tailnet).setFeed place.feed
      { f with channel := receipt.channel }
  have hc : b.net.Calm b₁.net :=
    Tailnet.calm_withStreams h.wired (Nat.le_of_eq (Tailnet.count_closeAll ..).symm)
  have hm : b.net.Moves b₁.net f.listener _ := hc.moves rfl
  have hfeed : b₁.feed place.feed = { f with channel := receipt.channel } := assign_same ..
  have halike : AlikeBut f.listener b.toTables b₁.toTables :=
    alikeBut_setFeed b.toTables place.feed { f with channel := receipt.channel } rfl
  cases hr : receipt.result with
  | error e =>
    have htake : b.takeNext place = b₁.refuse place.server e.toBridgeError := by
      unfold Bridge.takeNext
      simp only [show (b.feed place.feed).channel.receive.result = .error e from hr]
      rfl
    have hgain : ∀ b', gain b.feed place i b' (b₁.refuse (α := Handle) place.server
        e.toBridgeError).1 = [] := fun b' => by rw [Bridge.refuse_fst]; rfl
    have hf : Fits tables waiting (log ++ []) i b₁ :=
      h.at_feed hp.1 hm halike (fun _ hx => absurd hx List.not_mem_nil)
        fun x en _ _ _ _ hline => by
          rw [List.append_nil, hfeed, hline.refused hr]
          exact { hline with }
    rw [htake, hgain]
    have hq := quiet_refuse (α := Handle) hf.wired place.server e.toBridgeError
    exact hf.update hq.calm hq.alike
  | ok d =>
    let c : Conn := { server := place.server, listener := some place.listener, descriptor := d }
    have htake : b.takeNext place = (.ok (b₁.conns.allocate c).1,
        { b₁ with conns := (b₁.conns.allocate c).2 }) := by
      unfold Bridge.takeNext
      simp only [show (b.feed place.feed).channel.receive.result = .ok d from hr]
      rfl
    have hgain : gain b.feed place i { b₁ with conns := (b₁.conns.allocate c).2 }
        (.ok (b₁.conns.allocate c).1) = [.accepted f.listener i c] := by
      have hfind : (b₁.conns.allocate c).2.find? (b₁.conns.allocate c).1 = some c :=
        HandleTable.find?_allocated ..
      simp only [gain, acceptEvent, hfind]
      rfl
    rw [htake, hgain]
    refine h.at_feed hp.1 hm (halike.alike (quiet_setConns hc.wired _).alike)
      (fun x hx => ⟨c, List.mem_singleton.mp hx⟩) fun x en hen hef hel _ hline => ?_
    obtain ⟨rfl, hserver⟩ := hp.2 x en hen hef
    change Line _ _ (b₁.feed place.feed) i place.listener en
    rw [hfeed, show f.listener = en.listener from hel.symm]
    have htaken := hline.taken (c := c) hr rfl hserver.symm
    exact { htaken with }

structure Unmoved (b b' : Bridge Tailnet) : Prop where
  listeners : b'.listeners = b.listeners
  feeds : b'.feeds = b.feeds
  feed : ∀ k, (b'.feed k).listener = (b.feed k).listener
  net : b'.net.listener = b.net.listener

theorem Unmoved.refl (b : Bridge Tailnet) : Unmoved b b :=
  ⟨rfl, rfl, fun _ => rfl, rfl⟩

theorem Unmoved.trans {b₁ b₂ : Bridge Tailnet} (h : Unmoved b b₁) (h' : Unmoved b₁ b₂) :
    Unmoved b b₂ :=
  ⟨h'.listeners.trans h.listeners, h'.feeds.trans h.feeds,
    fun k => (h'.feed k).trans (h.feed k), h'.net.trans h.net⟩

theorem unmoved_takeNext (b : Bridge Tailnet) (place : Waiting) :
    Unmoved b (b.takeNext place).2 := by
  unfold Bridge.takeNext
  dsimp only
  split
  · unfold Bridge.refuse
    split <;> exact ⟨rfl, rfl, listener_assign rfl, rfl⟩
  · exact ⟨rfl, rfl, listener_assign rfl, rfl⟩

theorem unmoved_acceptNonblocking (b : Bridge Tailnet) (l : Handle) :
    Unmoved b (b.acceptNonblocking l).2 := by
  unfold Bridge.acceptNonblocking
  split
  · exact .refl b
  · exact unmoved_takeNext b _

theorem Placed.unmoved {b₁ : Bridge Tailnet} (hp : Placed b place) (hu : Unmoved b b₁) :
    Placed b₁ place := by
  unfold Placed
  rw [hu.listeners, hu.feeds]
  exact hp

def acceptGain (b : Bridge Tailnet) (l : Handle) (i : Nat) (b' : Bridge Tailnet)
    (r : Except BridgeError Handle) : List Event :=
  match b.placeAt l with
  | .ok place => gain b.feed place i b' r
  | .error _ => []

theorem acceptGain_unmoved {b₁ : Bridge Tailnet} (hu : Unmoved b b₁) (l : Handle)
    (b' : Bridge Tailnet) (r : Except BridgeError Handle) :
    acceptGain b₁ l i b' r = acceptGain b l i b' r := by
  unfold acceptGain
  rw [show b₁.placeAt l = b.placeAt l by unfold Bridge.placeAt; rw [hu.listeners]]
  cases b.placeAt l with
  | error e => rfl
  | ok place =>
    cases r with
    | error e => rfl
    | ok h =>
      dsimp only [gain, acceptEvent]
      rw [hu.feed]

theorem acceptGain_error (b b' : Bridge Tailnet) (l : Handle) (e : BridgeError) :
    acceptGain b l i b' (.error e) = [] := by
  unfold acceptGain
  split <;> rfl

def settled (b : Bridge Tailnet) (l : Handle) (i : Nat) (b' : Bridge Tailnet) :
    Acceptance → List Event
  | .done r => acceptGain b l i b' r
  | .waiting _ => []

theorem settled_unmoved {b₁ : Bridge Tailnet} (hu : Unmoved b b₁) (l : Handle)
    (b' : Bridge Tailnet) (a : Acceptance) : settled b₁ l i b' a = settled b l i b' a := by
  cases a with
  | done r => exact acceptGain_unmoved hu l b' r
  | waiting place => rfl

theorem fits_acceptNonblocking (h : Fits tables waiting log i b) (l : Handle) :
    Fits tables waiting
      (log ++ acceptGain b l i (b.acceptNonblocking l).2 (b.acceptNonblocking l).1) i
      (b.acceptNonblocking l).2 := by
  unfold Bridge.acceptNonblocking acceptGain
  cases hp : b.placeAt l with
  | error e =>
    rw [List.append_nil]
    exact h
  | ok place => exact fits_takeNext h (placed_of_placeAt h hp)

/-- Going on with an accept: it is done, or nothing changes and it waits on. -/
theorem fits_resumeAccept (h : Fits tables waiting log i b) (hp : Placed b place) :
    (∃ r b', b.resumeAccept place = (.done r, b') ∧
      Fits tables waiting (log ++ gain b.feed place i b' r) i b') ∨
    b.resumeAccept place = (.waiting place, b) := by
  unfold Bridge.resumeAccept
  split
  · exact .inl ⟨_, _, rfl, fits_takeNext h hp⟩
  · exact .inr rfl

theorem fits_accept (h : Fits tables waiting log i b) (l : Handle) :
    Fits tables waiting (log ++ settled b l i (b.accept l).2 (b.accept l).1) i (b.accept l).2 ∧
      ∀ place, (b.accept l).1 = .waiting place → Placed (b.accept l).2 place := by
  unfold Bridge.accept
  cases hp : b.placeAt l with
  | error e =>
    refine ⟨?_, fun _ he => by cases he⟩
    change Fits _ _ (log ++ acceptGain b l i b (.error e)) _ _
    rw [acceptGain_error, List.append_nil]
    exact h
  | ok place =>
    have hplaced := placed_of_placeAt h hp
    dsimp only
    rcases fits_resumeAccept h hplaced with ⟨r, b', he, hf⟩ | he
    · rw [he]
      refine ⟨?_, fun _ he => by cases he⟩
      change Fits _ _ (log ++ acceptGain b l i b' r) _ _
      unfold acceptGain
      rw [hp]
      exact hf
    · rw [he]
      refine ⟨?_, fun place' he => ?_⟩
      · change Fits _ _ (log ++ []) _ _
        rwa [List.append_nil]
      · cases he
        exact hplaced

theorem unmoved_resumeAcceptReady (b : Bridge Tailnet) (place : Waiting) :
    Unmoved b (b.resumeAcceptReady place).2 ∧
      ∀ place', (b.resumeAcceptReady place).1 = .waiting place' → place' = place := by
  have hu := unmoved_acceptNonblocking b place.listener
  unfold Bridge.resumeAcceptReady
  split
  · split
    · rename_i b₁ he
      rw [he] at hu
      exact ⟨hu, fun _ he => by cases he; rfl⟩
    · rename_i r b₁ _ he
      rw [he] at hu
      exact ⟨hu, fun _ he => by cases he⟩
  · exact ⟨.refl b, fun _ he => by cases he; rfl⟩

theorem fits_resumeAcceptReady (h : Fits tables waiting log i b) (place : Waiting) :
    Fits tables waiting (log ++ settled b place.listener i (b.resumeAcceptReady place).2
      (b.resumeAcceptReady place).1) i (b.resumeAcceptReady place).2 := by
  have ha := fits_acceptNonblocking h place.listener
  unfold Bridge.resumeAcceptReady
  split
  · revert ha
    generalize b.acceptNonblocking place.listener = r
    obtain ⟨r, b'⟩ := r
    intro ha
    split
    · rename_i b₁ he
      cases he
      rwa [acceptGain_error] at ha
    · rename_i r₁ b₁ _ he
      cases he
      exact ha
  · change Fits _ _ (log ++ []) _ _
    rwa [List.append_nil]

theorem fits_acceptReady (h : Fits tables waiting log i b) (l : Handle) :
    Fits tables waiting (log ++ settled b l i (b.acceptReady l).2 (b.acceptReady l).1) i
      (b.acceptReady l).2 ∧
      ∀ place, (b.acceptReady l).1 = .waiting place → Placed (b.acceptReady l).2 place := by
  have ha := fits_acceptNonblocking h l
  have hu := unmoved_acceptNonblocking b l
  unfold Bridge.acceptReady
  revert ha hu
  generalize b.acceptNonblocking l = r
  obtain ⟨r, b₁⟩ := r
  intro ha hu
  split
  · rename_i b₂ he
    cases he
    rw [acceptGain_error, List.append_nil] at ha
    cases hp : b₁.placeAt l with
    | error e =>
      refine ⟨?_, fun _ he => by cases he⟩
      change Fits _ _ (log ++ acceptGain b l i b₁ (.error e)) _ _
      rw [acceptGain_error, List.append_nil]
      exact ha
    | ok place =>
      have hplaced := placed_of_placeAt ha hp
      have hf := fits_resumeAcceptReady ha place
      obtain ⟨hr, hw⟩ := unmoved_resumeAcceptReady b₁ place
      obtain ⟨e, -, rfl⟩ := placeAt_ok hp
      refine ⟨?_, fun place' he => ?_⟩
      · rwa [settled_unmoved hu] at hf
      · obtain rfl := hw place' he
        exact hplaced.unmoved hr
  · rename_i r₁ b₂ _ he
    cases he
    exact ⟨ha, fun _ he => by cases he⟩

/-- Who waits matters only by where it waits. -/
theorem fits_waiting {waiting' : List Waiter} (h : Fits tables waiting log i b)
    (hw : ∀ w ∈ waiting', w ∈ waiting ∨ w.bridge = i ∧ Placed b w.place) :
    Fits tables waiting' log i b :=
  { h with
    waits := fun w hmem => by
      rcases hw w hmem with hold | ⟨rfl, hp⟩
      · exact h.waits w hold
      · rw [assign_same]
        exact hp }

theorem fits_waiters (h : Fits tables waiting log i b) (waiters : FeedId → Nat) :
    Fits tables waiting log i { b with waiters } :=
  h.update (.refl h.wired) (.of_eq (fun _ => rfl) rfl rfl rfl)

theorem fits_keep (h : Fits tables waiting log i b) (r : Reaction) :
    Fits tables waiting log i (b.keep r) :=
  fits_waiters h _

theorem fits_letGo (h : Fits tables waiting log i b) {k : FeedId} (hk : k < b.feeds) :
    Fits tables waiting log i (b.letGo k) :=
  fits_sweep (fits_waiters h _) hk

theorem placed_of_fits (h : Fits tables waiting log i b) {w : Waiter} (hw : w ∈ waiting)
    (hi : w.bridge = i) : Placed b w.place := by
  have := h.waits w hw
  rwa [hi, assign_same] at this

theorem waiting_of_reaction {a : Acceptance} (h : a.reaction = .waits place) :
    a = .waiting place := by
  cases a with
  | done r => cases h
  | waiting p => rw [Reaction.waits.inj h]

section Events
variable (b' : Bridge Tailnet) (l : Handle)

theorem events_accept (a : Acceptance) : events b i (.accept l) a.reaction b' =
    settled b l i b' a := by
  rcases a with (e | h) | place
  · exact (acceptGain_error b b' l e).symm
  · rfl
  · rfl

theorem events_acceptReady (a : Acceptance) : events b i (.acceptReady l) a.reaction b' =
    settled b l i b' a := by
  rcases a with (e | h) | place
  · exact (acceptGain_error b b' l e).symm
  · rfl
  · rfl

theorem events_acceptNonblocking (r : Except BridgeError Handle) :
    events b i (.acceptNonblocking l) (.ends (r.map .handle)) b' = acceptGain b l i b' r := by
  cases r with
  | error e => exact (acceptGain_error b b' l e).symm
  | ok h => rfl

end Events
end Handoff.Traffic
