import Handoff.Proofs.Race.Orderly

namespace Handoff.Race
variable {h : Handle} {e : ListenerEntry} {r r' : Race} {a : Actor} {actors : List Actor}

/-- An accept moves a connection from the channel to whoever waits, and nothing else at the
listener. -/
theorem taken_accept {place : Waiting} {result : Except BridgeError Handle} {b : Bridge Tailnet}
    (ho : Orderly h e r) (hw : r.accept = .waiting place)
    (hr : r.bridge.resumeAccept place = (.done result, b)) :
    taken { r with bridge := b, accept := .done result } ++ (b.feed e.feed).channel.pending =
        r.taken ++ (r.bridge.feed e.feed).channel.pending ∧
      (b.feed e.feed).pump = (r.bridge.feed e.feed).pump ∧ b.net = r.net := by
  obtain ⟨rfl, htaken⟩ := ho.waiting hw
  rw [htaken]
  obtain ⟨hnet, -, ⟨rfl, hfeed⟩ | ⟨d, rest, k, hq, rfl, hfind, hfeed⟩⟩ := resumed ho.flow.marked hr
  · exact ⟨congrArg (·.channel.pending) hfeed, congrArg Feed.pump hfeed, hnet⟩
  · dsimp only at hfeed hq
    refine ⟨?_, by rw [hfeed], hnet⟩
    unfold taken
    dsimp only
    rw [hfind, Channel.pending, Channel.pending, hq, hfeed]
    rfl

section Step
variable (ho : Orderly h e r) (hs : r.Step h e a r')
include ho hs

/-- Nobody opens a listener again, and nothing joins what the accept may still give. -/
theorem given_step (hc : ¬ r.net.Open e.listener) :
    r'.given e.feed <+: r.given e.feed ∧ ¬ r'.net.Open e.listener := by
  cases hs with
  | retire | join => exact ⟨List.prefix_rfl, hc⟩
  | shut _ hs | shutToo hs => exact ⟨List.prefix_rfl, hs.closed ho.bound hc⟩
  | shutdown =>
    refine ⟨?_, hc⟩
    simp only [given, feed_setFeed]
    exact List.prefix_rfl
  | pump hs =>
    have ha := Feed.advance_of_step hs
    have hstays := Feed.stays_advance ha fun _ => ho.listener ▸ hc
    have hpass := Feed.passing_advance ha (ho.listener ▸ hc)
    rw [ho.listener] at hstays
    refine ⟨?_, hstays.open.not.mpr hc⟩
    simp only [given, feed_setFeed]
    exact (List.prefix_append_right_inj _).mpr hpass
  | accept hw hr =>
    obtain ⟨htaken, hpump, hnet⟩ := taken_accept ho hw hr
    refine ⟨⟨[], ?_⟩, by rwa [net, hnet]⟩
    rw [List.append_nil, given, given, Feed.passing, Feed.passing, ← List.append_assoc,
      ← List.append_assoc, htaken, hpump]
  | dial hd =>
    have hstays := (Tailnet.connects_of_connect ho.bound hd).stays
    exact ⟨List.prefix_rfl, hstays.open.not.mpr hc⟩

/-- Once the receiver is shut down, what the accept may still give is what is on the channel. -/
theorem taken_step (hc : r.closing.isShut) : r'.closing.isShut ∧
    r'.taken ++ (r'.bridge.feed e.feed).channel.pending =
      r.taken ++ (r.bridge.feed e.feed).channel.pending := by
  cases hs with
  | retire h | shut h | shutdown h =>
    rw [h] at hc
    cases hc
  | join => exact ⟨rfl, rfl⟩
  | shutToo | dial => exact ⟨hc, rfl⟩
  | pump hs =>
    have hr := ho.receiver
    rw [hc] at hr
    have hpend := Feed.pending_advance (Feed.advance_of_step hs) hr
    refine ⟨hc, ?_⟩
    simp only [feed_setFeed]
    rw [hpend]
    rfl
  | accept hw hr => exact ⟨hc, (taken_accept ho hw hr).1⟩

/-- Whoever acts at a closed listener, unless it dials, has one step less before it. -/
theorem left_step (hc : ¬ r.net.Open e.listener) :
    r'.left e.feed + (if a = .dialer then 0 else 1) ≤ r.left e.feed := by
  cases hs with
  | retire hs =>
    simp only [left, hs, Closing.left, Shutting.left, reduceCtorEq, if_false]
    omega
  | shut hs hstep =>
    have := hstep.left_lt
    simp only [left, hs, Closing.left, setNet, reduceCtorEq, if_false]
    omega
  | shutdown hs =>
    simp only [left, hs, Closing.left, Shutting.left, feed_setFeed, reduceCtorEq, if_false]
    simp only [setFeed]
    omega
  | join hs =>
    simp only [left, hs, Closing.left, reduceCtorEq, if_false]
    omega
  | shutToo hstep =>
    have := hstep.left_lt
    simp only [left, setNet, reduceCtorEq, if_false]
    omega
  | pump hs =>
    have := Feed.rest_advance (Feed.advance_of_step hs) (ho.listener ▸ hc)
    simp only [left, feed_setFeed, reduceCtorEq, if_false]
    simp only [setFeed, setNet]
    omega
  | accept hw hr =>
    simp only [left, hw, (taken_accept ho hw hr).2.1, Acceptance.left, reduceCtorEq, if_false]
    exact Nat.le_refl _
  | dial hd => exact Nat.le_refl _

end Step

section Progress
variable (ho : Orderly h e r)
include ho

/-- Whoever closes the handle goes on until the pump has to end. -/
theorem closer_can_step : r.closing = .returned ∨
    r.closing = .joining ∧ (r.bridge.feed e.feed).pump ≠ .done ∨ ∃ r', r.Step h e .closer r' := by
  cases hc : r.closing with
  | retiring =>
    exact .inr (.inr ⟨_, .retire hc (HandleTable.close_ok_iff.mpr ⟨ho.live hc, rfl⟩)⟩)
  | shutting s =>
    rcases s.can_step e.listener r.net r.wakeUp with rfl | ⟨s', t, w, hs⟩
    · exact .inr (.inr ⟨_, .shutdown hc⟩)
    · exact .inr (.inr ⟨_, .shut hc hs⟩)
  | joining =>
    by_cases hp : (r.bridge.feed e.feed).pump = .done
    · exact .inr (.inr ⟨_, .join hc hp⟩)
    · exact .inr (.inl ⟨rfl, hp⟩)
  | returned => exact .inl rfl

/-- Once the pump has been woken and the receiver is shut down, the pump goes on until it ends. -/
theorem pump_can_step {id : StreamId} (hw : r.wakeUp = .made id) (hc : r.closing.isShut) :
    (r.bridge.feed e.feed).pump = .done ∨ ∃ r', r.Step h e .pump r' := by
  have hflow := ho.flow
  have hr := ho.receiver
  rw [hw] at hflow
  rw [hc] at hr
  exact (hflow.can_step hr).imp_right fun ⟨_, _, hs⟩ => ⟨_, .pump hs⟩

/-- Once the receiver is shut down, an accept waits no more. -/
theorem acceptor_can_step {place : Waiting} (hw : r.accept = .waiting place)
    (hc : r.closing.isShut) : ∃ r', r.Step h e .acceptor r' := by
  have hr := ho.receiver
  rw [hc] at hr
  obtain ⟨rfl, -⟩ := ho.waiting hw
  exact ⟨_, .accept hw (resumeAccept_shut hr)⟩

/-- Whoever has set the closed flag besides wakes the pump. -/
theorem other_can_step (hw : r.wakeUp = .pending) (hc : r.closing.isShut) :
    ∃ r', r.Step h e .other r' := by
  have hstage : r.closing.stage = .ended := by
    cases hr : r.closing with
    | joining | returned => rfl
    | retiring | shutting =>
      rw [hr] at hc
      cases hc
  have hshared := ho.shared
  rw [hstage] at hshared
  have howes := hshared.owing hw (hshared.begun (.inl rfl))
  rcases r.other.can_step e.listener r.net r.wakeUp with hover | ⟨s', t, w, hs⟩
  · rw [hover] at howes
    exact absurd rfl howes
  · exact ⟨_, .shutToo hs⟩

/-- Where only a dial could still happen, the close has returned and so has the accept. -/
theorem returned_of_stuck (hup : r.net.loopbackUp = true)
    (hs : ∀ a r', a ≠ .dialer → ¬ r.Step h e a r') :
    r.closing = .returned ∧ ∃ result, r.accept = .done result := by
  have hshut : r.closing.isShut = true := by
    rcases closer_can_step ho with hc | ⟨hc, -⟩ | ⟨r', hc⟩
    · rw [hc]
      rfl
    · rw [hc]
      rfl
    · exact absurd hc (hs _ _ nofun)
  constructor
  · rcases closer_can_step ho with hc | ⟨-, hp⟩ | ⟨r', hc⟩
    · exact hc
    · cases hw : r.wakeUp with
      | pending =>
        obtain ⟨r', hother⟩ := other_can_step ho hw hshut
        exact absurd hother (hs _ _ nofun)
      | made id =>
        obtain ⟨r', hpump⟩ := (pump_can_step ho hw hshut).resolve_left hp
        exact absurd hpump (hs _ _ nofun)
      | failed => exact absurd (ho.unfailed hw) (hup ▸ Bool.noConfusion)
    · exact absurd hc (hs _ _ nofun)
  · cases hw : r.accept with
    | done result => exact ⟨result, rfl⟩
    | waiting place =>
      obtain ⟨r', hacc⟩ := acceptor_can_step ho hw hshut
      exact absurd hacc (hs _ _ nofun)

end Progress

section Run
variable (hr : Run h e actors r r')
include hr

/-- What an accept gives after the flag was set was on the channel then, or in the pump's hand. -/
theorem given_run (ho : Orderly h e r) (hc : ¬ r.net.Open e.listener) :
    r'.given e.feed <+: r.given e.feed ∧ ¬ r'.net.Open e.listener := by
  induction hr with
  | refl => exact ⟨List.prefix_rfl, hc⟩
  | step hrun hs ih =>
    obtain ⟨hgiven, hclosed⟩ := ih ho hc
    obtain ⟨hgiven', hclosed'⟩ := given_step (ho.run hrun) hs hclosed
    exact ⟨hgiven'.trans hgiven, hclosed'⟩

/-- What an accept gives after the receiver was shut down was on the channel then. -/
theorem taken_run (ho : Orderly h e r) (hc : r.closing.isShut) : r'.closing.isShut ∧
    r'.taken ++ (r'.bridge.feed e.feed).channel.pending =
      r.taken ++ (r.bridge.feed e.feed).channel.pending := by
  induction hr with
  | refl => exact ⟨hc, rfl⟩
  | step hrun hs ih =>
    obtain ⟨hshut, htaken⟩ := ih ho hc
    obtain ⟨hshut', htaken'⟩ := taken_step (ho.run hrun) hs hshut
    exact ⟨hshut', htaken'.trans htaken⟩

/-- At a closed listener nobody but dialers goes on for long. -/
theorem left_run (ho : Orderly h e r) (hc : ¬ r.net.Open e.listener) :
    r'.left e.feed + (actors.filter (· ≠ .dialer)).length ≤ r.left e.feed := by
  induction hr with
  | refl => exact Nat.le_refl _
  | @step _ _ _ _ a hrun hs ih =>
    have hleft := left_step (ho.run hrun) hs (given_run hrun ho hc).2
    have hbefore := ih ho hc
    have hone : ([a].filter (· ≠ .dialer)).length = if a = .dialer then 0 else 1 := by
      cases a <;> rfl
    rw [List.filter_append, List.length_append, hone]
    omega

end Run
end Handoff.Race
