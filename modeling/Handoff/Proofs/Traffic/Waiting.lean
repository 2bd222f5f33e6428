import Mathlib.Data.List.Count
import Handoff.Proofs.Traffic.Reachable

/-!
Who waits at a channel. Main statement: a feed counts the calls that wait there, whatever happened,
so that its channel is swept only when none is left.
-/

namespace Handoff

namespace Bridge
variable {b b' : Bridge Tailnet} {α : Type}

theorem waiters_refuse (b : Bridge Tailnet) (server : Handle) (e : BridgeError) :
    (b.refuse (α := α) server e).2.waiters = b.waiters := by
  cases e <;> rfl

theorem waiters_withNode (b : Bridge Tailnet) (server : Handle)
    (op : NodeId → Tailnet → Except Failure α × Tailnet) :
    (b.withNode server op).2.waiters = b.waiters := by
  rcases Traffic.withNode_cases b server op with
    ⟨e, he⟩ | ⟨s, -, ⟨f, net, -, he⟩ | ⟨a, net, -, he⟩⟩ <;> rw [he]
  rfl

theorem waiters_asks (h : b.Asks b') : b'.waiters = b.waiters := by
  induction h with
  | nothing => rfl
  | asked _ _ _ _ ih => exact ih
  | noted _ _ _ ih => exact ih

theorem waiters_takeNext (b : Bridge Tailnet) (place : Waiting) :
    (b.takeNext place).2.waiters = b.waiters := by
  unfold takeNext
  dsimp only
  split
  · exact waiters_refuse ..
  · rfl

theorem waiters_acceptNonblocking (b : Bridge Tailnet) (l : Handle) :
    (b.acceptNonblocking l).2.waiters = b.waiters := by
  unfold acceptNonblocking
  split
  · rfl
  · exact waiters_takeNext ..

theorem waiters_resumeAccept (b : Bridge Tailnet) (place : Waiting) :
    (b.resumeAccept place).2.waiters = b.waiters := by
  unfold resumeAccept
  split
  · exact waiters_takeNext ..
  · rfl

theorem waiters_resumeAcceptReady (b : Bridge Tailnet) (place : Waiting) :
    (b.resumeAcceptReady place).2.waiters = b.waiters := by
  have htried := b.waiters_acceptNonblocking place.listener
  unfold resumeAcceptReady
  split
  · split <;> rename_i he <;> rw [he] at htried <;> exact htried
  · rfl

theorem waiters_accept (b : Bridge Tailnet) (l : Handle) : (b.accept l).2.waiters = b.waiters := by
  unfold accept
  split
  · rfl
  · exact waiters_resumeAccept ..

theorem waiters_acceptReady (b : Bridge Tailnet) (l : Handle) :
    (b.acceptReady l).2.waiters = b.waiters := by
  have htried := b.waiters_acceptNonblocking l
  unfold acceptReady
  split
  · rename_i he
    rw [he] at htried
    split
    · exact htried
    · exact (waiters_resumeAcceptReady ..).trans htried
  · rename_i he
    rw [he] at htried
    exact htried

theorem waiters_closeListener (b : Bridge Tailnet) (l : Handle) :
    (b.closeListener l).2.waiters = b.waiters := by
  cases he : b.listeners.find? l with
  | none => rw [closeListener_none he]
  | some e =>
    rw [closeListener_some he]
    rfl

theorem waiters_closeListeners (b : Bridge Tailnet) (ls : List Handle) :
    (b.closeListeners ls).waiters = b.waiters := by
  induction ls generalizing b with
  | nil => rfl
  | cons l ls ih => exact (ih _).trans (b.waiters_closeListener l)

/-- No operation changes who waits but by what it answers. -/
theorem waiters_perform (b : Bridge Tailnet) (v : Verb) : (b.perform v).2.waiters = b.waiters := by
  cases v with
  | close server =>
    change (b.close server).2.waiters = b.waiters
    cases hs : b.servers.find? server with
    | none => rw [close_none hs]
    | some s =>
      rw [close_some hs]
      exact waiters_closeListeners { b with servers := b.servers.erase server } _
  | dial server network address =>
    have hnode := b.waiters_withNode server fun n => Network.dial n network address
    change (b.dial server network address).2.waiters = b.waiters
    unfold dial
    split <;> rename_i he <;> rw [he] at hnode <;> exact hnode
  | listen server network address funnel =>
    change (b.listen server network address funnel).2.waiters = b.waiters
    rcases Traffic.listen_worded b server network address funnel with
      ⟨e, he⟩ | ⟨s, -, ⟨f, -, he⟩ | ⟨k, -, he⟩⟩ <;> rw [he] <;> rfl
  | accept l => exact b.waiters_accept l
  | acceptNonblocking l => exact b.waiters_acceptNonblocking l
  | acceptReady l => exact b.waiters_acceptReady l
  | closeListener l => exact b.waiters_closeListener l
  | connStream conn =>
    change (b.connStream conn).2.waiters = b.waiters
    unfold connStream
    split <;> rfl
  | takeConn conn =>
    change (b.takeConn conn).2.waiters = b.waiters
    unfold takeConn
    split <;> rfl
  | closeConn conn =>
    change (b.closeConn conn).2.waiters = b.waiters
    unfold closeConn
    split <;> rfl
  | _ => exact waiters_asks (b.asks_perform rfl)

/-- A call that waits goes on waiting, or lets go of its place once. -/
theorem waiters_resume (b : Bridge Tailnet) (ready : Bool) (place : Waiting) :
    (∃ p, (b.resume ready place).1 = .waiting p) ∧
        (b.resume ready place).2.waiters = b.waiters ∨
      (∃ r, (b.resume ready place).1 = .done r) ∧
        (b.resume ready place).2.waiters =
          assign b.waiters place.feed (b.waiters place.feed - 1) := by
  have htried :
      (if ready then b.resumeAcceptReady place else b.resumeAccept place).2.waiters =
        b.waiters := by
    split
    · exact b.waiters_resumeAcceptReady place
    · exact b.waiters_resumeAccept place
  unfold resume
  revert htried
  generalize (if ready then b.resumeAcceptReady place else b.resumeAccept place) = p
  obtain ⟨a, b'⟩ := p
  intro htried
  cases a with
  | waiting p => exact .inl ⟨⟨p, rfl⟩, htried⟩
  | done r =>
    refine .inr ⟨⟨r, rfl⟩, ?_⟩
    rw [← htried]
    rfl

end Bridge

namespace Traffic
variable {s s' : Traffic} {i : Nat} {k : FeedId}

def waitingAt (ws : List Waiter) (i : Nat) (k : FeedId) : Nat :=
  ws.countP fun w => w.bridge = i ∧ w.place.feed = k

def Counted (s : Traffic) : Prop :=
  ∀ i k, (s.tables i).waiters k = waitingAt s.waiting i k

theorem waitingAt_append (ws : List Waiter) (w : Waiter) (i : Nat) (k : FeedId) :
    waitingAt (ws ++ [w]) i k =
      waitingAt ws i k + if w.bridge = i ∧ w.place.feed = k then 1 else 0 := by
  unfold waitingAt
  rw [List.countP_append, List.countP_singleton]
  simp only [decide_eq_true_eq]

theorem waitingAt_erase {ws : List Waiter} {w : Waiter} (hw : w ∈ ws) (i : Nat) (k : FeedId) :
    waitingAt (ws.erase w) i k =
      waitingAt ws i k - if w.bridge = i ∧ w.place.feed = k then 1 else 0 := by
  unfold waitingAt
  rw [List.countP_erase]
  simp [hw]

/-- Whoever an operation leaves waiting comes last. -/
theorem waiting_perform (s : Traffic) (i : Nat) (v : Verb) :
    (∃ r, ((s.bridge i).perform v).1 = .ends r) ∧ (s.perform i v).waiting = s.waiting ∨
      ∃ place ready, ((s.bridge i).perform v).1 = .waits place ∧
        (s.perform i v).waiting = s.waiting ++ [⟨i, ready, place⟩] := by
  unfold perform
  generalize (s.bridge i).perform v = p
  obtain ⟨r, b⟩ := p
  cases r with
  | ends r => exact .inl ⟨⟨r, rfl⟩, rfl⟩
  | waits place =>
    dsimp only
    split
    · rename_i he
      cases he
      exact .inr ⟨_, true, rfl, rfl⟩
    · rename_i he _
      cases he
      exact .inr ⟨_, false, rfl, rfl⟩
    · rename_i he
      cases he

theorem counted_perform (h : Counted s) (i : Nat) (v : Verb) : Counted (s.perform i v) := by
  intro j k
  let b := ((s.bridge i).perform v).2
  let r := ((s.bridge i).perform v).1
  have hsame : b.waiters = (s.tables i).waiters := (s.bridge i).waiters_perform v
  change (assign s.tables i (b.keep r).toTables j).waiters k = _
  rcases s.waiting_perform i v with ⟨⟨x, hr⟩, hw⟩ | ⟨place, ready, hr, hw⟩
  · have hkeep : (b.keep r).waiters = (s.tables i).waiters := by
      rw [← hsame, show r = .ends x from hr]
      rfl
    rw [hw, ← h j k, assign_apply]
    split
    · rw [hkeep, ‹j = i›]
    · rfl
  · have hkeep : (b.keep r).waiters = assign (s.tables i).waiters place.feed
        ((s.tables i).waiters place.feed + 1) := by
      rw [← hsame, show r = .waits place from hr]
      rfl
    rw [hw, waitingAt_append, ← h j k, assign_apply]
    split
    · subst j
      rw [hkeep, assign_apply]
      by_cases hk : k = place.feed
      · subst k
        simp
      · simp [hk, Ne.symm hk]
    · simp [Ne.symm ‹j ≠ i›]

theorem counted_resume (h : Counted s) {w : Waiter} (hw : w ∈ s.waiting) :
    Counted (s.resume w) := by
  have hresume := (s.bridge w.bridge).waiters_resume w.ready w.place
  have hsame : (s.bridge w.bridge).waiters = (s.tables w.bridge).waiters := rfl
  have hdone : ∀ {log b}, b.waiters = assign (s.tables w.bridge).waiters w.place.feed
      ((s.tables w.bridge).waiters w.place.feed - 1) →
      Counted { toFleet := s.setBridge w.bridge b, waiting := s.waiting.erase w, log } := by
    intro log b hb j k
    change (assign s.tables w.bridge b.toTables j).waiters k = waitingAt (s.waiting.erase w) j k
    rw [waitingAt_erase hw, ← h j k, assign_apply]
    split
    · subst j
      rw [hb, assign_apply]
      by_cases hk : k = w.place.feed
      · subst k
        simp
      · simp [hk, Ne.symm hk]
    · simp [Ne.symm ‹j ≠ w.bridge›]
  rw [hsame] at hresume
  unfold resume
  dsimp only
  revert hresume
  generalize (s.bridge w.bridge).resume w.ready w.place = p
  obtain ⟨a, b⟩ := p
  rintro (⟨⟨place, rfl⟩, hb⟩ | ⟨⟨r, rfl⟩, hb⟩)
  · intro j k
    change (assign s.tables w.bridge b.toTables j).waiters k = waitingAt s.waiting j k
    rw [← h j k, assign_apply]
    split
    · rw [‹j = w.bridge›]
      exact congrFun hb k
    · rfl
  · dsimp only
    split
    · cases ‹Acceptance.done r = _›
    · exact hdone hb
    · exact hdone hb

theorem counted_move (h : Counted s) (hm : Move s s') : Counted s' := by
  have hassign : ∀ {i : Nat} {T : Tables} {net : Tailnet}, T.waiters = (s.tables i).waiters →
      Counted { s with net, tables := assign s.tables i T } := by
    intro i T net hT j k
    change (assign s.tables i T j).waiters k = _
    rw [← h j k, assign_apply]
    split
    · rw [hT, ‹j = i›]
    · rfl
  cases hm with
  | newServer i => exact hassign rfl
  | perform i v _ => exact counted_perform h i v
  | resume w hw => exact counted_resume h hw
  | pump i k _ =>
    unfold pump
    split
    · exact hassign rfl
    · exact h
  | dropBridge i hw =>
    intro j k
    change (assign s.tables i {} j).waiters k = waitingAt s.waiting j k
    rw [assign_apply]
    split
    · subst j
      refine (List.countP_eq_zero.mpr fun w hmem hat => ?_).symm
      exact hw w hmem (of_decide_eq_true hat).1
    · exact h j k
  | use n u _ _ =>
    cases u with
    | dial network address =>
      unfold use
      dsimp only
      split <;> exact h
    | _ => exact h
  | _ => exact h

/-- Nobody who waits is forgotten, and nobody else counted. -/
theorem Reachable.counted (h : Reachable s) : Counted s := by
  induction h with
  | start suffix supply loopbackUp files => exact fun _ _ => rfl
  | next _ hm ih => exact counted_move ih hm

/-- Whoever waits keeps the channel. -/
theorem Counted.kept (h : Counted s) {w : Waiter} (hw : w ∈ s.waiting) :
    (s.tables w.bridge).waiters w.place.feed ≠ 0 := by
  rw [h w.bridge w.place.feed]
  exact Nat.ne_of_gt (List.countP_pos_iff.mpr ⟨w, hw, by simp⟩)

end Traffic
end Handoff
