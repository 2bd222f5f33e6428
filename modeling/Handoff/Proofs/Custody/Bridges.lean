import Handoff.Proofs.Custody.Holding
import Handoff.Proofs.Custody.System

namespace Handoff
variable {base : Streams} {tables : Nat → Tables} {hand : List Descriptor} {i : Nat}

namespace Tailnet
variable {t t' : Tailnet} {T T' : Tables} {k : FeedId} {f f' : Feed}

theorem keptAt_eq (hc : T'.conns = T.conns) (hf : T'.feed = T.feed) :
    t.keptAt (assign tables i T') hand = t.keptAt (assign tables i T) hand := by
  funext r
  cases r with
  | conns j =>
    simp only [keptAt, assign_apply]
    split
    · rw [hc]
    · rfl
  | feed j k =>
    simp only [keptAt, assign_apply]
    split
    · rw [hf]
    · rfl
  | _ => rfl

theorem keptAt_setFeed (t : Tailnet) (T : Tables) (k : FeedId) (f : Feed) :
    t.keptAt (assign tables i { T with feed := assign T.feed k f }) hand =
      assign (t.keptAt (assign tables i T) hand) (.feed i k) f.kept := by
  funext r
  rw [assign_apply]
  cases r with
  | feed j m =>
    by_cases hj : j = i <;> by_cases hm : m = k <;> simp [keptAt, assign_apply, hj, hm]
  | conns j =>
    simp only [keptAt, assign_apply]
    split <;> rfl
  | _ => rfl

theorem keptAt_setConns (t : Tailnet) (T : Tables) (conns : HandleTable Conn) :
    t.keptAt (assign tables i { T with conns }) hand =
      assign (t.keptAt (assign tables i T) hand) (.conns i)
        (conns.entries.map Conn.descriptor) := by
  funext r
  rw [assign_apply]
  cases r with
  | conns j =>
    simp only [keptAt, assign_apply, Spot.conns.injEq]
    split <;> rfl
  | feed j m =>
    simp only [keptAt, assign_apply]
    split <;> rfl
  | _ => rfl

theorem keptAt_feed (t : Tailnet) (T : Tables) (k : FeedId) :
    t.keptAt (assign tables i T) hand (.feed i k) = (T.feed k).kept := by
  simp only [keptAt, assign_same]

theorem keptAt_conns (t : Tailnet) (T : Tables) :
    t.keptAt (assign tables i T) hand (.conns i) = T.conns.entries.map Conn.descriptor := by
  simp only [keptAt, assign_same]

def fed (tables : Nat → Tables) (i : Nat) (T : Tables) (k : FeedId) (f : Feed) : Nat → Tables :=
  assign tables i { T with feed := assign T.feed k f }

theorem keptAt_fed (t : Tailnet) (f f' : Feed) : t.keptAt (fed tables i T k f') hand =
    assign (t.keptAt (fed tables i T k f) hand) (.feed i k) f'.kept := by
  unfold fed
  rw [keptAt_setFeed, keptAt_setFeed, assign_assign]

theorem keptAt_fed_here (t : Tailnet) (f : Feed) :
    t.keptAt (fed tables i T k f) hand (.feed i k) = f.kept := by
  unfold fed
  rw [keptAt_setFeed, assign_same]

theorem Keeps.fed (h : Keeps base (fed tables i T k f) hand t)
    (hk : ∀ e, f'.kept.count e ≤ f.kept.count e) : Keeps base (fed tables i T k f') hand t := by
  unfold Keeps
  rw [keptAt_fed t f f']
  apply h.fewer_at
  intro e
  rw [keptAt_fed_here]
  exact hk e

/-- A step of a pump moves a connection on or closes it. -/
theorem Keeps.advance (h : Keeps base (Tailnet.fed tables i T k f) hand t)
    (ha : f.Advance t f' t') : Keeps base (Tailnet.fed tables i T k f') hand t' := by
  have hclose : ∀ f' d, f.pump.held = some d → f'.channel.pending = f.channel.pending →
      f'.pump.held = none → Keeps base (Tailnet.fed tables i T k f') hand
        { t with streams := t.streams.close d } := by
    intro f' d hd hp hn
    unfold Keeps
    change Accounted base (t.streams.close d) (t.keptAt (Tailnet.fed tables i T k f') hand)
    rw [keptAt_fed t f f']
    apply Accounted.close h
    intro e
    rw [keptAt_fed_here]
    simp [Feed.kept, hd, hp, hn]
  cases ha with
  | enter hp ho =>
    apply h.fed
    intro e
    simp [Feed.kept, hp, Pump.held]
  | refuse hp ho =>
    apply h.fed
    intro e
    simp [Feed.kept, hp, Pump.held, Feed.finish, Channel.dropSender, Channel.pending]
  | @arrive a rest hp hb =>
    unfold Keeps
    change Accounted base t.streams ((t.setListener f.listener _).keptAt _ hand)
    rw [keptAt_fed _ f, keptAt_setListener]
    have hne : Spot.queue f.listener ≠ Spot.feed i k := by rintro ⟨⟩
    apply Accounted.shift h hne
    intro e
    rw [keptAt_fed_here]
    simp only [keptAt, Listener.queued, hb, Feed.kept, hp, Pump.held, List.map_cons,
      List.count_append, List.count_cons, Option.toList, List.count_nil]
    omega
  | take hp ho =>
    apply h.fed
    intro e
    simp [Feed.kept, hp, Pump.held]
  | discard hp ho => exact hclose _ _ (by rw [hp]; rfl) rfl rfl
  | send hp hr hf =>
    apply h.fed
    intro e
    simp [Feed.kept, hp, Pump.held, Channel.pending]
  | giveUp hp hr => exact hclose _ _ (by rw [hp]; rfl) rfl rfl
  | leave hp =>
    apply (h.closeListener f.listener).fed
    intro e
    simp [Feed.kept, hp, Pump.held, Feed.finish, Channel.dropSender, Channel.pending]

theorem Keeps.steps (n : Nat) (h : Keeps base (Tailnet.fed tables i T k f) hand t) :
    Keeps base (Tailnet.fed tables i T k (f.steps n t).1) hand (f.steps n t).2 :=
  Feed.steps_keep (P := fun f t => Keeps base (Tailnet.fed tables i T k f) hand t)
    (fun _ _ _ _ h ha => h.advance ha) n h

end Tailnet

namespace Bridge
variable {b b' : Bridge Tailnet} {α : Type} {c : Conn} {d : Descriptor}

def Keeps (base : Streams) (tables : Nat → Tables) (i : Nat) (hand : List Descriptor)
    (b : Bridge Tailnet) : Prop :=
  b.net.Keeps base (assign tables i b.toTables) hand

theorem Keeps.same (h : Keeps base tables i hand b) (hn : b'.net = b.net)
    (hc : b'.conns = b.conns) (hf : b'.feed = b.feed) : Keeps base tables i hand b' := by
  unfold Keeps Tailnet.Keeps
  rw [Tailnet.keptAt_eq (T := b.toTables) hc hf, hn]
  exact h

theorem Keeps.record (h : Keeps base tables i hand b) (server : Handle) (text : String) :
    Keeps base tables i hand (b.record server text) :=
  h.same rfl rfl rfl

theorem Keeps.refuse (h : Keeps base tables i hand b) (server : Handle) (e : BridgeError) :
    Keeps base tables i hand (b.refuse (α := α) server e).2 := by
  unfold Bridge.refuse
  split
  · exact h.record server _
  · exact h.record server _
  · exact h

theorem Keeps.withNode (h : Keeps base tables i hand b) (server : Handle)
    (op : NodeId → Tailnet → Except Failure α × Tailnet)
    (hop : ∀ n, (op n b.net).2.Keeps base (assign tables i b.toTables) hand) :
    Keeps base tables i hand (b.withNode server op).2 := by
  rcases Traffic.withNode_cases b server op with
    ⟨e, he⟩ | ⟨s, -, ⟨f, net, hs, he⟩ | ⟨a, net, hs, he⟩⟩
  · rw [he]
    exact h
  · have hn := hop s.node
    rw [hs] at hn
    have hb : Keeps base tables i hand { b with net } := hn
    rw [he]
    exact hb.record server f.message
  · have hn := hop s.node
    rw [hs] at hn
    rw [he]
    exact hn

section Connections

/-- A handle takes the descriptor it stands for. -/
theorem Keeps.allocate (h : Keeps base tables i (c.descriptor :: hand) b) :
    Keeps base tables i hand { b with conns := (b.conns.allocate c).2 } := by
  unfold Keeps Tailnet.Keeps
  change Accounted base b.net.streams
    (b.net.keptAt (assign tables i { b.toTables with conns := (b.conns.allocate c).2 }) hand)
  rw [Tailnet.keptAt_setConns, Tailnet.keptAt_hand _ _ (c.descriptor :: hand) hand]
  have hne : Spot.hand ≠ Spot.conns i := nofun
  apply Accounted.shift h hne
  intro e
  have hcount := b.conns.count_allocate (g := Conn.descriptor) c e
  rw [Tailnet.keptAt_conns]
  simp only [Tailnet.keptAt, List.count_cons, List.count_nil] at hcount ⊢
  omega

theorem Keeps.dial (h : Keeps base tables i hand b) (server : Handle) (network address : String) :
    Keeps base tables i hand (b.dial server network address).2 := by
  have hdial := fun n => Tailnet.Keeps.dial h n network address
  unfold Bridge.dial
  rcases Traffic.withNode_worded b server (fun n => Network.dial n network address)
    (fun n t => t.dial n network address) (fun _ _ => rfl) with
    ⟨e, he⟩ | ⟨s, -, ⟨f, hf, he⟩ | ⟨d, hd, he⟩⟩
  · rw [he]
    exact h
  · have hs := hdial s.node
    rw [hf] at hs
    have hb : Keeps base tables i hand { b with net := (b.net.dial s.node network address).2 } := hs
    rw [he]
    exact hb.record server f.toFailure.message
  · have hs := hdial s.node
    rw [hd] at hs
    have hb : Keeps base tables i (d :: hand)
        { b with net := (b.net.dial s.node network address).2 } := hs
    rw [he]
    exact hb.allocate (c := { server, listener := none, descriptor := d })

/-- What comes off a channel is given to its taker, but for what is dropped. -/
theorem Keeps.receive (h : Keeps base tables i hand b) (k : FeedId) :
    Keeps base tables i ((b.feed k).channel.receive.result.toOption.toList ++ hand)
      (({ b with net := { b.net with
        streams := b.net.streams.closeAll (b.feed k).channel.receive.dropped } } :
          Bridge Tailnet).setFeed k
        { b.feed k with channel := (b.feed k).channel.receive.channel }) := by
  let f : Feed := b.feed k
  let f' : Feed := { f with channel := f.channel.receive.channel }
  have hkept : f.kept = f.channel.receive.result.toOption.toList ++
      f.channel.receive.dropped ++ f'.kept := by
    rw [Feed.kept, ← Channel.pending_receive f.channel, List.append_assoc]
    rfl
  have hspot : b.net.keptAt (assign tables i b.toTables) hand (.feed i k) = f.kept :=
    Tailnet.keptAt_feed ..
  have hclosed : Accounted base (b.net.streams.closeAll f.channel.receive.dropped)
      (assign (b.net.keptAt (assign tables i b.toTables) hand) (.feed i k)
        (f.channel.receive.result.toOption.toList ++ f'.kept)) := by
    apply Accounted.closeAll _ h
    intro e
    rw [hspot, hkept]
    simp only [List.count_append]
    omega
  have hne : Spot.feed i k ≠ Spot.hand := nofun
  unfold Keeps Tailnet.Keeps
  change Accounted base (b.net.streams.closeAll f.channel.receive.dropped) (b.net.keptAt
    (assign tables i { b.toTables with feed := assign b.feed k f' })
      (f.channel.receive.result.toOption.toList ++ hand))
  rw [Tailnet.keptAt_hand _ _ hand (_ ++ hand), Tailnet.keptAt_setFeed,
    ← assign_assign _ (Spot.feed i k) (f.channel.receive.result.toOption.toList ++ f'.kept)]
  apply hclosed.shift hne
  intro e
  rw [assign_same, assign_of_ne _ _ _ hne.symm]
  simp only [Tailnet.keptAt, List.count_append]
  omega

theorem Keeps.takeNext (h : Keeps base tables i hand b) (place : Waiting) :
    Keeps base tables i hand (b.takeNext place).2 := by
  have hreceived := h.receive place.feed
  unfold Bridge.takeNext
  cases hr : (b.feed place.feed).channel.receive.result with
  | error e =>
    rw [hr] at hreceived
    simp only [hr]
    exact Keeps.refuse hreceived place.server e.toBridgeError
  | ok d =>
    rw [hr] at hreceived
    simp only [hr]
    exact Keeps.allocate
      (c := { server := place.server, listener := some place.listener, descriptor := d }) hreceived

/-- A copy of a connection's descriptor is one more. -/
theorem Keeps.connStream (h : Keeps base tables i hand b) (conn : Handle) :
    Keeps base tables i ((b.connStream conn).1.toOption.toList ++ hand)
      (b.connStream conn).2 := by
  unfold Bridge.connStream
  cases hg : b.conns.get conn with
  | error e => exact h
  | ok c =>
    have hc := HandleTable.get_ok_iff.mp hg
    unfold Keeps Tailnet.Keeps
    change Accounted base (b.net.streams.copy c.descriptor)
      (b.net.keptAt (assign tables i b.toTables) (c.descriptor :: hand))
    rw [Tailnet.keptAt_hand _ _ hand (c.descriptor :: hand)]
    apply Accounted.copy (q := .conns i) h
    · rw [Tailnet.keptAt_conns]
      apply List.mem_map_of_mem
      exact List.mem_map_of_mem (f := Prod.snd) (HandleTable.mem_live_iff.mpr hc)
    · intro e
      simp only [Tailnet.keptAt, List.count_cons, List.count_nil]
      omega

theorem Keeps.takeConn (h : Keeps base tables i hand b) (conn : Handle) :
    Keeps base tables i ((b.takeConn conn).1.toOption.toList ++ hand)
      (b.takeConn conn).2 := by
  unfold Bridge.takeConn
  rw [HandleTable.close_eq]
  cases hc : b.conns.find? conn with
  | none => exact h
  | some c =>
    unfold Keeps Tailnet.Keeps
    change Accounted base b.net.streams (b.net.keptAt
      (assign tables i { b.toTables with conns := b.conns.erase conn }) (c.descriptor :: hand))
    rw [Tailnet.keptAt_hand _ _ hand (c.descriptor :: hand), Tailnet.keptAt_setConns]
    have hne : Spot.conns i ≠ Spot.hand := nofun
    apply Accounted.shift h hne
    intro e
    have hcount := HandleTable.count_erase (g := Conn.descriptor) hc e
    rw [Tailnet.keptAt_conns]
    simp only [Tailnet.keptAt, List.count_cons, List.count_nil] at hcount ⊢
    omega

theorem Keeps.closeConn (h : Keeps base tables i hand b) (conn : Handle) :
    Keeps base tables i hand (b.closeConn conn).2 := by
  have htaken := h.takeConn conn
  unfold Bridge.closeConn
  unfold Bridge.takeConn at htaken
  rw [HandleTable.close_eq] at htaken ⊢
  cases hc : b.conns.find? conn with
  | none => exact h
  | some c =>
    rw [hc] at htaken
    exact Tailnet.Keeps.close htaken

end Connections

section Listeners

/-- What is swept off a channel is closed. -/
theorem Keeps.sweep (h : Keeps base tables i hand b) (k : FeedId) :
    Keeps base tables i hand (b.sweep k) := by
  let f := b.feed k
  have hself : b.net.Keeps base (Tailnet.fed tables i b.toTables k f) hand := by
    unfold Tailnet.fed
    rw [assign_self]
    exact h
  let left := if b.isDeserted k then f.channel.pending else []
  let f' : Feed := { f with
    channel := if b.isDeserted k then f.channel.dropReceiver else f.channel }
  unfold Keeps Tailnet.Keeps
  change Accounted base (b.net.streams.closeAll left)
    (b.net.keptAt (Tailnet.fed tables i b.toTables k f') hand)
  rw [Tailnet.keptAt_fed b.net f f']
  apply Accounted.closeAll _ hself
  intro e
  rw [Tailnet.keptAt_fed_here]
  cases hd : b.isDeserted k with
  | true =>
    have hkept : f'.kept = f.pump.held.toList := by
      change (if b.isDeserted k then f.channel.dropReceiver else f.channel).pending ++ _ = _
      rw [hd]
      rfl
    have hleft : left = f.channel.pending := if_pos hd
    rw [hkept, hleft, Feed.kept, List.count_append, Nat.add_comm]
  | false =>
    have hkept : f'.kept = f.kept := by
      change (if b.isDeserted k then f.channel.dropReceiver else f.channel).pending ++ _ = _
      rw [hd]
      rfl
    have hleft : left = [] := if_neg (by rw [hd]; exact Bool.false_ne_true)
    rw [hkept, hleft]
    exact Nat.le_refl _

/-- The end of a feed closes what nobody will accept. -/
theorem Keeps.endFeed (h : Keeps base tables i hand b) (k : FeedId) :
    Keeps base tables i hand (b.endFeed k) := by
  let f : Feed := { b.feed k with channel := (b.feed k).channel.shutdown }
  have hshut : b.net.Keeps base (Tailnet.fed tables i b.toTables k f) hand := by
    have hself : b.net.Keeps base (Tailnet.fed tables i b.toTables k (b.feed k)) hand := by
      unfold Tailnet.fed
      rw [assign_self]
      exact h
    exact hself.fed fun _ => Nat.le_refl _
  let r := f.run b.net
  have hrun : r.2.Keeps base (Tailnet.fed tables i b.toTables k r.1) hand := hshut.steps _
  have hstopped : Keeps base tables i hand (b.stopFeed k) :=
    hrun.releaseListener r.1.listener
  exact hstopped.sweep k

theorem Keeps.letGo (h : Keeps base tables i hand b) (k : FeedId) :
    Keeps base tables i hand (b.letGo k) := by
  have hcounted : Keeps base tables i hand
      { b with waiters := assign b.waiters k (b.waiters k - 1) } := h.same rfl rfl rfl
  exact hcounted.sweep k

theorem Keeps.closeListener (h : Keeps base tables i hand b) (listener : Handle) :
    Keeps base tables i hand (b.closeListener listener).2 := by
  cases he : b.listeners.find? listener with
  | none =>
    rw [Bridge.closeListener_none he]
    exact h
  | some entry =>
    rw [Bridge.closeListener_some he]
    have hclosed := Tailnet.Keeps.closeListener h entry.listener
    have herased : Keeps base tables i hand { b with
        listeners := b.listeners.erase listener
        net := b.net.closeListener entry.listener } :=
      Keeps.same (b := { b with net := b.net.closeListener entry.listener }) hclosed rfl rfl rfl
    exact herased.endFeed entry.feed

theorem Keeps.closeListeners (h : Keeps base tables i hand b) (ls : List Handle) :
    Keeps base tables i hand (b.closeListeners ls) := by
  induction ls generalizing b with
  | nil => exact h
  | cons l ls ih => exact ih (h.closeListener l)

/-- Nothing has come through the channel of a new listener. -/
theorem Keeps.addListener (h : Keeps base tables i hand b) (server : Handle) (l : ListenerId) :
    Keeps base tables i hand (b.addListener server l).2 := by
  have hfed :
      b.net.Keeps base (Tailnet.fed tables i b.toTables b.feeds { listener := l }) hand := by
    unfold Tailnet.Keeps Tailnet.fed
    rw [Tailnet.keptAt_setFeed]
    apply Accounted.fewer_at h
    intro e
    exact Nat.zero_le _
  exact Keeps.same (b := { b with feed := assign b.feed b.feeds { listener := l } })
    hfed rfl rfl rfl

theorem Keeps.listen (h : Keeps base tables i hand b) (server : Handle)
    (network address : String) (funnel : Option FunnelMode) :
    Keeps base tables i hand (b.listen server network address funnel).2 := by
  have hnode := h.withNode server (fun n => Network.listen n network address funnel)
    fun n => Tailnet.Keeps.listen h n network address funnel
  unfold Bridge.listen
  revert hnode
  generalize (b.withNode server fun n => Network.listen n network address funnel) = r
  obtain ⟨r, b₁⟩ := r
  intro hnode
  cases r with
  | error e => exact hnode
  | ok l => exact Keeps.addListener hnode server l

end Listeners

section Ending

theorem Keeps.close (h : Keeps base tables i hand b) (server : Handle) :
    Keeps base tables i hand (b.close server).2 := by
  cases hs : b.servers.find? server with
  | none =>
    rw [close_none hs]
    exact h
  | some s =>
    rw [close_some hs]
    have herased : Keeps base tables i hand { b with servers := b.servers.erase server } :=
      h.same rfl rfl rfl
    have hclosed : Keeps base tables i hand (b.without server) :=
      herased.closeListeners (b.listenersOf server)
    have hended := Tailnet.Keeps.endNode hclosed s.node
    exact Tailnet.Keeps.releaseNode hended s.node

/-- The end of a bridge closes what its handles stand for. -/
theorem Keeps.drop (h : Keeps base tables i hand b) :
    Tailnet.Keeps base (assign tables i {}) hand b.drop := by
  have hclosed := h.closeListeners b.listeners.handles
  unfold Bridge.drop
  generalize b.closeListeners b.listeners.handles = b₁ at hclosed
  have hconns : Tailnet.Keeps base (assign tables i { b₁.toTables with conns := .empty .conn 0 })
      hand { b₁.net with
        streams := b₁.net.streams.closeAll (b₁.conns.entries.map Conn.descriptor) } := by
    unfold Tailnet.Keeps
    change Accounted base (b₁.net.streams.closeAll (b₁.conns.entries.map Conn.descriptor))
      (b₁.net.keptAt _ hand)
    rw [Tailnet.keptAt_setConns]
    apply Accounted.closeAll _ hclosed
    intro e
    rw [Tailnet.keptAt_conns]
    simp [HandleTable.entries, HandleTable.empty]
  apply Accounted.fewer (hconns.releaseNodes (b₁.servers.entries.map Server.node))
  intro r e
  cases r with
  | conns j =>
    simp only [Tailnet.keptAt, assign_apply]
    split <;> exact Nat.le_refl _
  | feed j k =>
    simp only [Tailnet.keptAt, assign_apply]
    split
    · exact Nat.zero_le _
    · exact Nat.le_refl _
  | _ => exact Nat.le_refl _

end Ending

section Performing

theorem Keeps.asks (h : Keeps base tables i hand b) (ha : Asks b b') :
    Keeps base tables i hand b' := by
  induction ha with
  | nothing => exact h
  | asked n v hv _ ih => exact Tailnet.Keeps.ask ih hv n
  | noted server text _ ih => exact ih.record server text

theorem Keeps.takes (h : Keeps base tables i hand b) (ht : Takes b b') :
    Keeps base tables i hand b' := by
  induction ht with
  | nothing => exact h
  | next place _ ih => exact ih.takeNext place
  | letGo k _ ih => exact ih.letGo k

theorem Keeps.newServer (h : Keeps base tables i hand b) :
    Keeps base tables i hand b.newServer.2 := by
  have hnode : b.net.newNode.2.Keeps base (assign tables i b.toTables) hand :=
    Tailnet.Keeps.of_eq h rfl rfl
  exact Keeps.same (b := { b with net := b.net.newNode.2 }) hnode rfl rfl rfl

theorem given_ending {reply : α → Reply} {r : Outcome Tailnet α}
    (hr : ∀ a d, reply a ≠ .descriptor d) : (ending reply r).1.given = [] := by
  obtain ⟨r, b'⟩ := r
  cases r with
  | error e => rfl
  | ok a =>
    unfold ending Reaction.given
    dsimp only [Except.map]
    split
    · rename_i d hd
      exact absurd (Except.ok.inj (Reaction.ends.inj hd)) (hr a d)
    · rfl

theorem given_acceptance (a : Acceptance) : a.reaction.given = [] := by
  cases a with
  | done r => cases r <;> rfl
  | waiting place => rfl

/-- The descriptor an operation gives out is open, like all others. -/
theorem Keeps.perform (h : Keeps base tables i hand b) (verb : Verb) :
    Keeps base tables i ((b.perform verb).1.given ++ hand) (b.perform verb).2 := by
  have hsilent : ∀ {α : Type} {reply : α → Reply} {r : Outcome Tailnet α},
      (∀ a d, reply a ≠ .descriptor d) → Keeps base tables i hand r.2 →
      Keeps base tables i ((ending reply r).1.given ++ hand) (ending reply r).2 := by
    intro α reply r hr hb
    rw [given_ending hr]
    exact hb
  have hgiven : ∀ {r : Outcome Tailnet Descriptor},
      Keeps base tables i (r.1.toOption.toList ++ hand) r.2 →
      Keeps base tables i ((ending .descriptor r).1.given ++ hand) (ending .descriptor r).2 := by
    intro r hb
    obtain ⟨r, b'⟩ := r
    cases r with
    | error e => exact hb
    | ok d => exact hb
  have haccepted : ∀ {r : Acceptance × Bridge Tailnet}, Keeps base tables i hand r.2 →
      Keeps base tables i ((r.map Acceptance.reaction id).1.given ++ hand)
        (r.map Acceptance.reaction id).2 := by
    intro r hb
    obtain ⟨a, b'⟩ := r
    rw [show ((a, b').map Acceptance.reaction id).1 = a.reaction from rfl, given_acceptance]
    exact hb
  cases verb with
  | start server => exact hsilent nofun (h.asks (b.asks_start server))
  | up server => exact hsilent nofun (h.asks (b.asks_up server))
  | close server => exact hsilent nofun (h.close server)
  | configure server option => exact hsilent nofun (h.asks (b.asks_configure server option))
  | applyConfig server config =>
    exact hsilent nofun (h.asks (b.asks_configureAll server config.options))
  | dial server network address => exact hsilent nofun (h.dial server network address)
  | listen server network address funnel =>
    exact hsilent nofun (h.listen server network address funnel)
  | addresses server capacity =>
    exact hsilent nofun (h.asks (b.asks_addresses server capacity))
  | certDomains server capacity =>
    exact hsilent nofun (h.asks (b.asks_certDomains server capacity))
  | loopback server capacity => exact hsilent nofun (h.asks (b.asks_loopback server capacity))
  | lastError server capacity => exact hsilent nofun h
  | accept l => exact haccepted (h.takes (takes_accept b l))
  | acceptNonblocking l => exact hsilent nofun (h.takes (takes_acceptNonblocking .nothing l))
  | acceptReady l => exact haccepted (h.takes (takes_acceptReady b l))
  | listenerReadable l => exact hsilent nofun h
  | closeListener l => exact hsilent nofun (h.closeListener l)
  | remoteAddress l conn capacity =>
    exact hsilent nofun (h.asks (b.asks_remoteAddress l conn capacity))
  | connStream conn => exact hgiven (h.connStream conn)
  | takeConn conn => exact hgiven (h.takeConn conn)
  | closeConn conn => exact hsilent nofun (h.closeConn conn)

end Performing
end Bridge
end Handoff
