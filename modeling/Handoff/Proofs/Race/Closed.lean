import Handoff.Proofs.Race.Returning
import Handoff.Proofs.Traffic.Delivery

namespace Handoff

/-- What is left to do once the close of a listener's handle has returned: the listener is let go
of, and what nobody will accept is dropped. -/
def Bridge.leaveFeed (b : Bridge Tailnet) (i : FeedId) : Bridge Tailnet :=
  { b with net := b.net.releaseListener (b.feed i).listener }.sweep i

def Bridge.runFeed (b : Bridge Tailnet) (i : FeedId) : Bridge Tailnet :=
  { b with net := ((b.feed i).run b.net).2 }.setFeed i ((b.feed i).run b.net).1

theorem Bridge.endFeed_eq (b : Bridge Tailnet) (i : FeedId) :
    b.endFeed i = ((b.setFeed i { b.feed i with
      channel := (b.feed i).channel.shutdown }).runFeed i).leaveFeed i := by
  unfold Bridge.endFeed Bridge.stopFeed Bridge.runFeed Bridge.leaveFeed Bridge.setFeed
  simp only [assign_same, assign_assign]
  rfl

namespace Race
variable {h : Handle} {e : ListenerEntry} {r r' r'' : Race} {actors more : List Actor}

theorem Run.trans (hr : Run h e actors r r') (hr' : Run h e more r' r'') :
    Run h e (actors ++ more) r r'' := by
  induction hr' with
  | refl =>
    rw [List.append_nil]
    exact hr
  | step _ hs ih =>
    rw [← List.append_assoc]
    exact (ih hr).step hs

/-- The pump, left alone, does what it does as many times in a row as it can. -/
theorem run_pump (n : Nat) (r : Race) : ∃ actors r', Run h e actors r r' ∧
    (∀ a ∈ actors, a = .pump) ∧ r'.closing = r.closing ∧
      r'.bridge = { r.bridge with net := ((r.bridge.feed e.feed).steps n r.net).2 }.setFeed e.feed
        ((r.bridge.feed e.feed).steps n r.net).1 := by
  induction n generalizing r with
  | zero =>
    refine ⟨[], r, .refl r, nofun, rfl, ?_⟩
    rw [Feed.steps, Bridge.setFeed, assign_self]
    rfl
  | succ n ih =>
    unfold Feed.steps
    cases hs : (r.bridge.feed e.feed).step r.net with
    | none =>
      refine ⟨[], r, .refl r, nofun, rfl, ?_⟩
      dsimp only
      rw [Bridge.setFeed, assign_self]
      rfl
    | some result =>
      obtain ⟨f, t⟩ := result
      have hone := (Run.refl (h := h) r).step (.pump hs)
      obtain ⟨actors, r', hr, hp, hc, hb⟩ := ih _
      refine ⟨_, r', hone.trans hr, ?_, hc, ?_⟩
      · intro a ha
        rcases List.mem_append.mp ha with ha | ha
        · exact List.mem_singleton.mp ha
        · exact hp a ha
      · rw [hb]
        simp only [feed_setFeed]
        simp only [setFeed, setNet, net, Bridge.setFeed, assign_assign]

/-- Once the pump has been woken and the receiver is shut down, the pump ends by itself and the
close returns. -/
theorem run_return {id : StreamId} (ho : Orderly h e r) (hc : r.closing = .joining)
    (hw : r.wakeUp = .made id) :
    ∃ actors r', Run h e actors r r' ∧ (∀ a ∈ actors, a = .closer ∨ a = .pump) ∧
      r'.closing = .returned ∧ r'.bridge = r.bridge.runFeed e.feed := by
  have hdone : ((r.bridge.feed e.feed).run r.net).1.pump = .done := by
    have hflow := ho.flow
    have hr := ho.receiver
    rw [hw] at hflow
    rw [hc] at hr
    exact hflow.ends hr (Nat.le_trans (Pump.rest_le _) (by omega))
  obtain ⟨actors, r', hrun, hp, hc', hb⟩ := run_pump (5 * (_ + 2)) r
  have hf : r'.bridge.feed e.feed = ((r.bridge.feed e.feed).run r.net).1 := by
    rw [hb]
    exact assign_same ..
  refine ⟨_, _, hrun.step (.join (hc'.trans hc) (by rw [hf, hdone])), ?_, rfl, hb⟩
  intro a ha
  rcases List.mem_append.mp ha with ha | ha
  · exact .inr (hp a ha)
  · exact .inl (List.mem_singleton.mp ha)

/-- A close that nobody interferes with, on a machine that reaches itself, returns. With what is
left to do then it is the close of the handle in one piece. -/
theorem run_closeListener {b : Bridge Tailnet} (ho : Orderly h e (.of b h e))
    (hopen : b.net.Open e.listener) (hup : b.net.loopbackUp = true) :
    ∃ actors r, Run h e actors (.of b h e) r ∧ (∀ a ∈ actors, a = .closer ∨ a = .pump) ∧
      r.closing = .returned ∧ b.closeListener h = (.ok (), r.bridge.leaveFeed e.feed) := by
  have hfind : b.listeners.find? h = some e := ho.live rfl
  have hclose := HandleTable.close_ok_iff.mpr ⟨hfind, rfl⟩
  let t := (b.net.markClosed e.listener).unroute e.listener
  have hl : t.listener e.listener = { b.net.listener e.listener with closed := true } :=
    Tailnet.listener_shut_self ..
  obtain ⟨id, t', hwake⟩ : ∃ id t', t.connect (t.listener e.listener).backing .wakeUp =
      .ok (id, t') := by
    have hb : t.bound (t.listener e.listener).backing = some e.listener := by
      rw [hl]
      exact ho.bound
    unfold Tailnet.connect
    rw [show t.loopbackUp = true from hup, hb]
    exact ⟨_, _, rfl⟩
  have hnet : b.net.closeListener e.listener =
      { t' with streams := t'.streams.close ⟨id, .near⟩ } := by
    have hflag : (b.net.listener e.listener).closed = false := hopen
    rw [Tailnet.closeListener, if_neg (by rw [hflag]; exact Bool.false_ne_true)]
    change t.wake e.listener = _
    rw [Tailnet.wake, hwake]
  have hretire := (Run.refl (h := h) (e := e) (.of b h e)).step (.retire rfl hclose)
  have hmark := hretire.step (.shut rfl (.mark hopen))
  have hunroute := hmark.step (.shut rfl .unroute)
  have hwoken := hunroute.step (.shut rfl (.wake hwake))
  have hshut := hwoken.step (.shutdown rfl)
  obtain ⟨actors, r, hrun, hwho, hret, hb⟩ := run_return (ho.run hshut) rfl rfl
  refine ⟨_, r, hshut.trans hrun, ?_, hret, ?_⟩
  · intro a ha
    rcases List.mem_append.mp ha with ha | ha
    · exact .inl (by simpa using ha)
    · exact hwho a ha
  · rw [Bridge.closeListener_some hfind, hb, Bridge.endFeed_eq,
      show Network.closeListener e.listener b.net = b.net.closeListener e.listener from rfl, hnet]
    rfl

/-- What a close of the handle `h`, which stands for `e`, does to whoever else is at the listener,
and what they leave it to do, wherever they all have got to. -/
structure Closes (h : Handle) (e : ListenerEntry) (r : Race) : Prop where
  /-- What woke the pump is given to nobody. -/
  hidden : ∀ id, r.wakeUp = .made id → ∀ d ∈ r.given e.feed, d.stream ≠ id
  /-- The pump hands over at most one more connection once the closed flag is set. -/
  sent : r.sent ≤ 1
  steps : r.steps ≤ 2
  /-- Once it has been woken and nobody receives any more, the pump never waits again. -/
  pump : ∀ id, r.wakeUp = .made id → r.closing.isShut →
    (r.bridge.feed e.feed).pump = .done ∨ ∃ r', r.Step h e .pump r'
  ends : ∀ id, r.wakeUp = .made id → r.closing.isShut →
    ((r.bridge.feed e.feed).steps 2 r.net).1.pump = .done
  accept : ∀ place, r.accept = .waiting place → r.closing.isShut → ∃ r', r.Step h e .acceptor r'
  answered : ∀ result, r.accept = .done result → result = .error .connectionReset ∨
    ∃ k c, result = .ok k ∧ r.bridge.conns.find? k = some c ∧ r.taken = [c.descriptor] ∧
      c.listener = some h ∧ c.server = e.server
  /-- What an accept gives once the flag is set was on the channel then, or in the pump's hand. -/
  given : ∀ actors r', Run h e actors r r' → ¬ r.net.Open e.listener →
    r'.given e.feed <+: r.given e.feed
  /-- What an accept gives once nobody receives any more was on the channel then. -/
  taken : ∀ actors r', Run h e actors r r' → r.closing.isShut →
    r'.taken ++ (r'.bridge.feed e.feed).channel.pending =
      r.taken ++ (r.bridge.feed e.feed).channel.pending
  /-- Once the flag is set nobody but dialers goes on for long. -/
  bounded : ∀ actors r', Run h e actors r r' → ¬ r.net.Open e.listener →
    (actors.filter (· ≠ .dialer)).length ≤ 12
  /-- Nobody waits for ever, on a machine that reaches itself. -/
  returns : r.net.loopbackUp = true → (∀ a r', a ≠ .dialer → ¬ r.Step h e a r') →
    r.closing = .returned ∧ ∃ result, r.accept = .done result

/-- Whatever waits at an open listener, closing its handle wakes everybody and ends. So it does
where somebody else closes the listener before or meanwhile. -/
theorem closes_of_reachable {s : Traffic} {i : Nat} (hs : Traffic.Reachable s)
    (he : (s.tables i).listeners.find? h = some e) (hopen : s.net.Open e.listener)
    (hr : Run h e actors (.of (s.bridge i) h e) r) : Closes h e r := by
  have ho := (orderly_start hs.intact he hopen).run hr
  have hflow := ho.flow
  exact {
    hidden := hflow.hidden
    sent := Nat.le_trans (Nat.le_add_right ..) hflow.sent
    steps := Nat.le_trans (Nat.le_add_right ..) hflow.steps
    pump := fun _ hw hc => pump_can_step ho hw hc
    ends := fun id hw hc => by
      have hrecv := ho.receiver
      rw [hw] at hflow
      rw [hc] at hrecv
      exact hflow.ends hrecv (Pump.rest_le _)
    accept := fun _ hw hc => acceptor_can_step ho hw hc
    answered := fun result hdone => by
      have hans := ho.answered
      unfold Answered at hans
      unfold Race.taken
      rw [hdone] at hans ⊢
      cases result with
      | error x => exact .inl (congrArg _ hans)
      | ok k =>
        obtain ⟨c, hc, hl, hserver⟩ := hans
        exact .inr ⟨k, c, rfl, hc, by dsimp only; rw [hc]; rfl, hl, hserver⟩
    given := fun _ _ hrun hc => (given_run hrun ho hc).1
    taken := fun _ _ hrun hc => (taken_run hrun ho hc).2
    bounded := fun _ r' hrun hc => by
      have hleft := left_run hrun ho hc
      have hle := r.left_le e.feed
      omega
    returns := returned_of_stuck ho }

/-- A close while the pump holds the second of two connections. -/
theorem closes_of_dialedTwice : ∃ actors r,
    Run ⟨2818049⟩ ⟨⟨2752513⟩, 0, 0⟩ actors
      (.of (Traffic.dialedTwice.bridge 0) ⟨2818049⟩ ⟨⟨2752513⟩, 0, 0⟩) r ∧
    r.closing = .returned ∧ Closes ⟨2818049⟩ ⟨⟨2752513⟩, 0, 0⟩ r := by
  have he : (Traffic.dialedTwice.tables 0).listeners.find? ⟨2818049⟩ =
      some ⟨⟨2752513⟩, 0, 0⟩ := by decide +kernel
  have hopen : Traffic.dialedTwice.net.Open 0 := by decide +kernel
  have ho := orderly_start Traffic.reachable_dialedTwice.intact he hopen
  obtain ⟨actors, r, hr, -, hret, -⟩ := run_closeListener ho hopen (by decide +kernel)
  exact ⟨actors, r, hr, hret, closes_of_reachable Traffic.reachable_dialedTwice he hopen hr⟩

end Race
end Handoff
