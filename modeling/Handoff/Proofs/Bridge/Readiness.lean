import Handoff.Proofs.Bridge.Stale

namespace Handoff

namespace Channel
variable {δ : Type} {c : Channel δ}

/-- A poll and a receive that does not wait tell the same. -/
theorem isReadable_eq_false_iff :
    c.isReadable = false ↔ c.receive.result = .error .wouldBlock := by
  unfold isReadable
  constructor
  · intro h
    simp only [Bool.or_eq_false_iff, Bool.not_eq_false', List.isEmpty_iff] at h
    obtain ⟨⟨hq, hs⟩, hr⟩ := h
    rw [receive_empty hq, hs, hr]
    rfl
  · intro h
    have hq := queue_of_wouldBlock h
    rw [receive_empty hq] at h
    cases hs : c.senderOpen <;> cases hr : c.receiverOpen <;> simp_all

end Channel

namespace Feed
variable {W : Type} [Network W] {f f' : Feed} {w w' : W}

/-- Once nobody receives any more, a pump leaves the channel as it is until it ends. -/
theorem shut_step (hr : f.channel.receiverOpen = false) (h : f.step w = some (f', w')) :
    f'.channel.receiverOpen = false ∧ f'.channel.queue = f.channel.queue := by
  unfold step at h
  split at h
  · split at h
    · cases h
    all_goals
      cases h
      exact ⟨hr, rfl⟩
  · unfold deliver at h
    rw [hr, Channel.send_shut hr] at h
    cases h
    exact ⟨hr, rfl⟩
  · cases h
    exact ⟨hr, rfl⟩
  · cases h

theorem shut_steps (hr : f.channel.receiverOpen = false) (n : Nat) (w : W) :
    (f.steps n w).1.channel.receiverOpen = false ∧
      (f.steps n w).1.channel.queue = f.channel.queue := by
  induction n generalizing f w with
  | zero => exact ⟨hr, rfl⟩
  | succ n ih =>
    rw [steps]
    cases hs : f.step w with
    | none => exact ⟨hr, rfl⟩
    | some r =>
      obtain ⟨hreceiver, hqueue⟩ := shut_step hr hs
      obtain ⟨hend, hkept⟩ := ih hreceiver r.2
      exact ⟨hend, hkept.trans hqueue⟩

end Feed

def ListenerEntry.place (e : ListenerEntry) (l : Handle) : Waiting :=
  ⟨l, e.server, e.feed⟩

def ListenerEntry.endings (e : ListenerEntry) (l : Handle) : List Verb :=
  [.closeListener l, .close e.server]

namespace Bridge
variable {W : Type} [Network W] {b : Bridge W} {l : Handle} {e : ListenerEntry} {place : Waiting}

theorem isReady_eq_false_iff :
    b.isReady place = false ↔ (b.takeNext place).1 = .error .wouldBlock :=
  Channel.isReadable_eq_false_iff.trans takeNext_wouldBlock_iff.symm

theorem acceptNonblocking_some (he : b.listeners.find? l = some e) :
    b.acceptNonblocking l = b.takeNext (e.place l) := by
  rw [acceptNonblocking, placeAt_some he]
  rfl

theorem accept_some (he : b.listeners.find? l = some e) :
    b.accept l = b.resumeAccept (e.place l) := by
  rw [accept, placeAt_some he]
  rfl

theorem resumeAccept_place {place' : Waiting} (h : (b.resumeAccept place).1 = .waiting place') :
    place' = place := by
  unfold resumeAccept at h
  split at h
  · cases h
  · exact (Acceptance.waiting.inj h).symm

/-- As long as the listener has its handle, whoever waits for readiness goes on as whoever waits for
the connection itself. -/
theorem resumeAcceptReady_live (he : b.listeners.find? l = some e) :
    b.resumeAcceptReady (e.place l) = b.resumeAccept (e.place l) := by
  unfold resumeAcceptReady resumeAccept
  cases hready : b.isReady (e.place l) with
  | false => rfl
  | true =>
    have hfound : (b.takeNext (e.place l)).1 ≠ .error .wouldBlock := fun h => by
      rw [isReady_eq_false_iff.mpr h] at hready
      cases hready
    have htake : b.acceptNonblocking (e.place l).listener = b.takeNext (e.place l) :=
      acceptNonblocking_some he
    simp only [if_true]
    rw [htake]
    split
    · rename_i h
      rw [h] at hfound
      exact absurd rfl hfound
    · rename_i h
      rw [h]
      rfl

/-- Both begin alike. -/
theorem acceptReady_eq_accept (hw : ∀ w : W, Network.withStreams w (Network.streams w) = w)
    (b : Bridge W) (l : Handle) : b.acceptReady l = b.accept l := by
  cases he : b.listeners.find? l with
  | none =>
    unfold acceptReady accept acceptNonblocking
    rw [placeAt_none he]
  | some e =>
    unfold acceptReady
    rw [accept_some he, acceptNonblocking_some he]
    split
    · rename_i b₁ htake
      obtain rfl := takeNext_wouldBlock hw htake
      rw [placeAt_some he]
      exact resumeAcceptReady_live he
    · rename_i r b₁ hfound htake
      have hready : b.isReady (e.place l) = true := by
        rw [← Bool.not_eq_false, isReady_eq_false_iff, htake]
        exact fun h => hfound h
      rw [resumeAccept, if_pos hready, htake]
      rfl

/-- In `b'` nothing comes through the feed any more. What was queued in `b` is there for whoever
waited, and for nobody else. -/
structure Shut (b b' : Bridge W) (k : FeedId) : Prop where
  waiters : b'.waiters = b.waiters
  receiver : (b'.feed k).channel.receiverOpen = false
  queue : (b'.feed k).channel.queue =
    if b.waiters k = 0 then [] else (b.feed k).channel.queue

theorem shut_endFeed (b : Bridge W) (k : FeedId) : Shut b (b.endFeed k) k := by
  let f : Feed := { b.feed k with channel := (b.feed k).channel.shutdown }
  have hstop : (b.stopFeed k).feed k = (f.run b.net).1 := assign_same ..
  obtain ⟨hreceiver, hqueue⟩ := Feed.shut_steps (f := f) rfl _ b.net
  have hdeserted : (b.stopFeed k).isDeserted k = decide (b.waiters k = 0) := by
    unfold isDeserted
    rw [hstop, Feed.run, hreceiver, Bool.not_false, Bool.and_true]
    rfl
  have hfeed : ((b.endFeed k).feed k).channel = if b.waiters k = 0
      then (f.run b.net).1.channel.dropReceiver else (f.run b.net).1.channel := by
    rw [endFeed, feed_sweep, hdeserted, hstop]
    simp only [decide_eq_true_eq]
  refine ⟨rfl, ?_, ?_⟩
  · rw [hfeed]
    split
    · rfl
    · exact hreceiver
  · rw [hfeed]
    split
    · rfl
    · exact hqueue

omit [Network W] in
theorem Shut.since {b₁ b' : Bridge W} {k : FeedId} (h : Shut b₁ b' k)
    (hw : b₁.waiters = b.waiters) (hf : b₁.feed k = b.feed k) : Shut b b' k := by
  obtain ⟨hwaiters, hreceiver, hqueue⟩ := h
  rw [hw] at hwaiters hqueue
  rw [hf] at hqueue
  exact ⟨hwaiters, hreceiver, hqueue⟩

theorem Shut.closeListener {b' : Bridge W} {k : FeedId} (h : Shut b b' k) (l : Handle) :
    Shut b (b'.closeListener l).2 k := by
  cases he : b'.listeners.find? l with
  | none => rwa [closeListener_none he]
  | some e =>
    rw [closeListener_some he]
    let b₁ : Bridge W := { b' with
      listeners := b'.listeners.erase l, net := Network.closeListener e.listener b'.net }
    by_cases hk : k = e.feed
    · subst k
      obtain ⟨hwaiters, hreceiver, hqueue⟩ := shut_endFeed b₁ e.feed
      refine ⟨hwaiters.trans h.waiters, hreceiver, hqueue.trans ?_⟩
      change (if b'.waiters e.feed = 0 then [] else (b'.feed e.feed).channel.queue) = _
      rw [h.queue, h.waiters]
      split <;> rfl
    · have hsame : (b₁.endFeed e.feed).feed k = b'.feed k := feed_endFeed_ne b₁ hk
      exact ⟨h.waiters, by rw [hsame]; exact h.receiver, by rw [hsame]; exact h.queue⟩

theorem shut_closeListener (he : b.listeners.find? l = some e) :
    Shut b (b.closeListener l).2 e.feed := by
  rw [closeListener_some he]
  exact (shut_endFeed _ e.feed).since rfl rfl

theorem closeListener_feed (b : Bridge W) (l : Handle) (k : FeedId) :
    Shut b (b.closeListener l).2 k ∨
      (b.closeListener l).2.waiters = b.waiters ∧ (b.closeListener l).2.feed k = b.feed k := by
  cases he : b.listeners.find? l with
  | none =>
    rw [closeListener_none he]
    exact .inr ⟨rfl, rfl⟩
  | some e =>
    by_cases hk : k = e.feed
    · exact .inl (hk ▸ shut_closeListener he)
    · rw [closeListener_some he]
      exact .inr ⟨rfl, feed_endFeed_ne _ hk⟩

theorem Shut.closeListeners {b' : Bridge W} {k : FeedId} (h : Shut b b' k) (ls : List Handle) :
    Shut b (b'.closeListeners ls) k := by
  induction ls generalizing b' with
  | nil => exact h
  | cons l ls ih => exact ih (h.closeListener l)

theorem shut_closeListeners {ls : List Handle} (he : b.listeners.find? l = some e) (hl : l ∈ ls) :
    Shut b (b.closeListeners ls) e.feed := by
  induction ls generalizing b with
  | nil => cases hl
  | cons k ls ih =>
    by_cases hk : l = k
    · subst k
      exact (shut_closeListener he).closeListeners ls
    · rcases b.closeListener_feed k e.feed with hshut | ⟨hwaiters, hfeed⟩
      · exact hshut.closeListeners ls
      · have hlive : (b.closeListener k).2.listeners.find? l = some e :=
          ((b.closeListener_tables k).2 l).trans ((if_neg hk).trans he)
        exact (ih hlive ((List.mem_cons.mp hl).resolve_left hk)).since hwaiters hfeed

/-- A listener that ends, by its own handle or by its server's, has no handle any more. -/
theorem shut_perform {v : Verb} (he : b.listeners.find? l = some e)
    (hs : b.servers.contains e.server = true) (hv : v ∈ e.endings l) :
    Shut b (b.perform v).2 e.feed ∧ (b.perform v).2.listeners.find? l = none := by
  simp only [ListenerEntry.endings, List.mem_cons, List.not_mem_nil, or_false] at hv
  rcases hv with rfl | rfl
  · refine ⟨shut_closeListener he, ?_⟩
    change (b.closeListener l).2.listeners.find? l = none
    rw [(b.closeListener_tables l).2, if_pos rfl]
  · obtain ⟨s, hs⟩ : ∃ s, b.servers.find? e.server = some s := Option.isSome_iff_exists.mp hs
    have hmem : l ∈ b.listenersOf e.server := mem_listenersOf.mpr ⟨e, he, rfl⟩
    have hshut : Shut b (b.without e.server) e.feed :=
      (shut_closeListeners (b := { b with servers := b.servers.erase e.server }) he hmem).since
        rfl rfl
    change Shut b (b.close e.server).2 e.feed ∧ _
    constructor
    · rw [close_some hs]
      exact ⟨hshut.waiters, hshut.receiver, hshut.queue⟩
    · cases hl : (b.close e.server).2.listeners.find? l with
      | none => exact hl
      | some e' =>
        obtain ⟨hold, hne⟩ := (b.close_tables e.server hs).2 l e' hl
        obtain rfl := Option.some.inj (he.symm.trans hold)
        exact absurd rfl hne

omit [Network W] in
theorem isReady_of_shut (h : (b.feed place.feed).channel.receiverOpen = false) :
    b.isReady place = true := by
  rw [isReady, Channel.isReadable, h]
  exact Bool.or_true _

/-- Once its listener has ended and nothing is queued, an accept is told so. -/
theorem resumeAccept_ended (place : Waiting)
    (hr : (b.feed place.feed).channel.receiverOpen = false)
    (hq : (b.feed place.feed).channel.queue = []) :
    (b.resumeAccept place).1 = .done (.error .connectionReset) := by
  rw [resumeAccept, if_pos (isReady_of_shut hr)]
  have hreset : (b.takeNext place).1 = .error .connectionReset := by
    unfold takeNext
    dsimp only
    rw [Channel.receive_empty hq, hr, Bool.and_false]
    exact refuse_fst ..
  exact congrArg Acceptance.done hreset

/-- What is queued goes to whoever waits for a connection, whatever became of the listener. -/
theorem resumeAccept_queued (place : Waiting) {d : Descriptor} {rest : List (Message Descriptor)}
    (hq : (b.feed place.feed).channel.queue = ⟨1, [d]⟩ :: rest) :
    ∃ k, (b.resumeAccept place).1 = .done (.ok k) ∧
      (b.resumeAccept place).2.conns.find? k =
        some ⟨place.server, some place.listener, d⟩ := by
  have hready : b.isReady place = true := by
    rw [isReady, Channel.isReadable, hq]
    rfl
  have hgot : (b.feed place.feed).channel.receive.result = .ok d := by
    rw [Channel.receive, hq]
    rfl
  rw [resumeAccept, if_pos hready, takeNext]
  dsimp only
  rw [hgot]
  exact ⟨_, rfl, HandleTable.find?_allocated ..⟩

/-- Whoever waits for readiness asks by the handle, and is told that it is bad. -/
theorem resumeAcceptReady_ended (place : Waiting)
    (hr : (b.feed place.feed).channel.receiverOpen = false)
    (hl : b.listeners.find? place.listener = none) :
    b.resumeAcceptReady place = (.done (.error (.badHandle place.listener)), b) := by
  rw [resumeAcceptReady, if_pos (isReady_of_shut hr), acceptNonblocking, placeAt_none hl]

end Bridge
end Handoff
