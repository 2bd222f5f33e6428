import Handoff.Proofs.Traffic.Tallying

namespace Handoff

namespace Feed
variable {f f' : Feed} {t t' : Tailnet}

theorem steps_succ (h : f.Advance t f' t') (n : Nat) : f.steps (n + 1) t = f'.steps n t' := by
  rw [steps, step_of_advance h]

theorem steps_none (h : f.step t = none) (n : Nat) : f.steps n t = (f, t) := by
  cases n with
  | zero => rfl
  | succ n => rw [steps, h]

theorem step_done (h : f.pump = .done) : f.step t = none := by
  rw [step, h]

theorem step_blocked (h : f.pump = .accepting .waiting)
    (hb : (t.listener f.listener).backlog = []) : f.step t = none := by
  rw [step_accepting h, Tailnet.acceptStep_waiting, hb]

/-- The pump takes no more connections from its listener. -/
def Idle (f : Feed) (t : Tailnet) : Prop :=
  f.pump = .done ∨ f.pump = .accepting .waiting ∧ (t.listener f.listener).backlog = []

/-- At a listener that is closed the pump takes one more connection at most, which it closes. -/
structure Stops (f : Feed) (t : Tailnet) (r : Feed × Tailnet) : Prop where
  idle : r.1.Idle r.2
  /-- It ends if anything wakes it. -/
  woken : (t.listener f.listener).backlog ≠ [] → r.1.pump = .done
  queue : (r.2.listener f.listener).queued = (t.listener f.listener).queued ∨
    ∃ d, (t.listener f.listener).queued = d :: (r.2.listener f.listener).queued ∧
      r.2.streams = t.streams.close d

theorem steps_discard {d : Descriptor} (hp : f.pump = .accepting (.arrived d))
    (hc : ¬ t.Open f.listener) (n : Nat) :
    f.steps (n + 1) t = (f.finish, { t with streams := t.streams.close d }) := by
  rw [steps_succ (.discard hp hc), steps_none (step_done rfl)]

theorem steps_leave (hp : f.pump = .leaving) (hc : ¬ t.Open f.listener) (n : Nat) :
    f.steps (n + 1) t = (f.finish, t) := by
  rw [steps_succ (.leave hp), Tailnet.closeListener_closed hc, steps_none (step_done rfl)]

theorem stops_steps (hc : ¬ t.Open f.listener) (hr : f.channel.receiverOpen = false) (n : Nat) :
    f.Stops t (f.steps (n + 2) t) := by
  cases hp : f.pump with
  | accepting phase =>
    cases phase with
    | entering =>
      rw [steps_succ (.refuse hp hc), steps_none (step_done rfl)]
      exact ⟨.inl rfl, fun _ => rfl, .inl rfl⟩
    | waiting =>
      cases hb : (t.listener f.listener).backlog with
      | nil =>
        rw [steps_none (step_blocked hp hb)]
        exact ⟨.inr ⟨hp, hb⟩, fun h => absurd hb h, .inl rfl⟩
      | cons a rest =>
        let g : Feed := { f with pump := .accepting (.arrived ⟨a.stream, .far⟩) }
        let u := t.setListener f.listener { t.listener f.listener with backlog := rest }
        have hu : u.listener f.listener = { t.listener f.listener with backlog := rest } :=
          assign_same ..
        have hc' : ¬ u.Open g.listener := by
          change ¬ (u.listener f.listener).closed = false
          rwa [hu]
        rw [steps_succ (.arrive hp hb), steps_discard (f := g) (t := u) rfl hc']
        refine ⟨.inl rfl, fun _ => rfl, .inr ⟨⟨a.stream, .far⟩, ?_, rfl⟩⟩
        change _ = _ :: (u.listener f.listener).queued
        rw [hu, Tailnet.Listener.queued, hb]
        rfl
    | arrived d =>
      rw [steps_discard hp hc]
      exact ⟨.inl rfl, fun _ => rfl, .inl rfl⟩
  | holding d =>
    let g : Feed := { f with pump := .leaving }
    let u : Tailnet := { t with streams := t.streams.close d }
    rw [steps_succ (.giveUp hp hr), steps_leave (f := g) (t := u) rfl hc]
    exact ⟨.inl rfl, fun _ => rfl, .inl rfl⟩
  | leaving =>
    rw [steps_leave hp hc]
    exact ⟨.inl rfl, fun _ => rfl, .inl rfl⟩
  | done =>
    rw [steps_none (step_done hp)]
    exact ⟨.inl hp, fun _ => hp, .inl rfl⟩

end Feed

namespace Tailnet
variable {t : Tailnet} {l : ListenerId}

/-- Whatever wakes an accept waits behind the others. -/
theorem queued_closeListener (t : Tailnet) (l : ListenerId) :
    (t.listener l).queued <+: ((t.closeListener l).listener l).queued := by
  unfold closeListener
  split
  · exact List.prefix_refl _
  · let u := (t.markClosed l).unroute l
    have hshut : (u.listener l).queued = (t.listener l).queued := by
      rw [show u.listener l = _ from listener_shut_self t l]
      rfl
    rw [← hshut]
    change _ <+: ((u.wake l).listener l).queued
    unfold wake
    split
    · exact List.prefix_refl _
    · rename_i id v h
      obtain ⟨k, -, rfl, rfl⟩ := connect_ok h
      change _ <+: ((u.setListener k _).listener l).queued
      rw [listener_setListener]
      split
      · subst k
        rw [Listener.queued, Listener.queued, List.map_append]
        exact List.prefix_append ..
      · exact List.prefix_refl _

end Tailnet

namespace Bridge
variable {b : Bridge Tailnet} {l : ListenerId} {q : List Descriptor}

/-- The end of a listener leaves `q` waiting there, and has the pump take no more. -/
structure Leaves (b b' : Bridge Tailnet) (l : ListenerId) (k : FeedId) (q : List Descriptor) :
    Prop where
  adrift : b'.net.Adrift l q
  idle : (b'.feed k).pump = .done ∨ (b'.feed k).pump = .accepting .waiting ∧ q = []
  /-- One connection more is taken at most, and ends. -/
  taken : ∀ d ∈ (b.net.listener l).queued, d ∈ q ∨ (b'.net.streams.own d).ended = true
  waits : (b.net.listener l).queued.tail ⊆ q

theorem pump_endFeed (b : Bridge Tailnet) (k : FeedId) : ((b.endFeed k).feed k).pump =
    ({ b.feed k with channel := (b.feed k).channel.shutdown }.run b.net).1.pump := by
  rw [endFeed, feed_sweep, Traffic.feed_stopFeed]

theorem leaves_endFeed {k : FeedId} (hw : b.net.Wired) (hl : (b.feed k).listener = l)
    (hc : ¬ b.net.Open l) (ht : b.net.Tallied l 1) (hs : b.net.Sole l) :
    ∃ q, Leaves b (b.endFeed k) l k q := by
  subst hl
  let f : Feed := { b.feed k with channel := (b.feed k).channel.shutdown }
  let r := f.run b.net
  have hstops : f.Stops b.net r := f.stops_steps hc rfl _
  have hholds : Tailnet.Holds f.listener b.net r.2 := Feed.holds_steps _ f b.net f.listener
  have hl : r.1.listener = f.listener := Feed.listener_steps ..
  have hcalm : b.net.Calm r.2 := Traffic.calm_steps _ hw hc
  let q := (r.2.listener f.listener).queued
  have hreleased : (r.2.releaseListener r.1.listener).Adrift f.listener q := by
    rw [hl]
    exact (hholds.tallied ht).adrift hcalm.wired (fun ho => hc (hcalm.open ho)) (hholds.sole hs)
  have hends := (b.stopFeed k).retains_sweep f.listener k
  refine ⟨q, hends.adrift hreleased, ?_, fun d hd => ?_, ?_⟩
  · rw [pump_endFeed]
    rcases hstops.idle with hdone | ⟨hwaiting, hempty⟩
    · exact .inl hdone
    · rw [hl] at hempty
      refine .inr ⟨hwaiting, ?_⟩
      change List.map _ (r.2.listener f.listener).backlog = []
      rw [hempty]
      rfl
  · rcases hstops.queue with hsame | ⟨e, hcons, hclosed⟩
    · rw [← hsame] at hd
      exact .inl hd
    · rw [hcons] at hd
      rcases List.mem_cons.mp hd with rfl | hd
      · obtain ⟨hmade, hlast⟩ := hs d (hcons ▸ List.mem_cons_self ..)
        have hended : (r.2.streams.own d).ended = true := by
          rw [hclosed, Streams.own_close, if_pos rfl]
          simp [hlast]
        have hrest := (Tailnet.queues_releaseListener r.2 f.listener r.1.listener).trans
          hends.toQueues
        exact .inr (hrest.ended d (Nat.lt_of_lt_of_le hmade hholds.count) hended)
      · exact .inl hd
  · rcases hstops.queue with hsame | ⟨e, hcons, -⟩
    · rw [← hsame]
      exact List.tail_subset _
    · rw [hcons]
      exact List.Subset.refl _

theorem leaves_closeListener {k : Handle} {e : ListenerEntry} (hw : b.net.Wired)
    (he : b.listeners.find? k = some e) (hl : (b.feed e.feed).listener = e.listener)
    (ht : b.net.Tallied e.listener 1) (hs : b.net.Sole e.listener) :
    ∃ q, Leaves b (b.closeListener k).2 e.listener e.feed q := by
  rw [closeListener_some he]
  let b₁ : Bridge Tailnet := { b with
    listeners := b.listeners.erase k, net := b.net.closeListener e.listener }
  have hholds := Tailnet.holds_closeListener b.net e.listener e.listener
  obtain ⟨q, hleaves⟩ := leaves_endFeed (b := b₁) (k := e.feed) (l := e.listener)
    (Tailnet.calm_closeListener hw e.listener).wired hl
    (Tailnet.closed_closeListener b.net e.listener) (hholds.tallied ht) (hholds.sole hs)
  obtain ⟨woken, hqueued⟩ := Tailnet.queued_closeListener b.net e.listener
  refine ⟨q, { hleaves with
    taken := fun d hd => hleaves.taken d ?_
    waits := fun d hd => hleaves.waits ?_ }⟩
  · change d ∈ ((b.net.closeListener e.listener).listener e.listener).queued
    rw [← hqueued]
    exact List.mem_append_left _ hd
  · change d ∈ ((b.net.closeListener e.listener).listener e.listener).queued.tail
    rw [← hqueued]
    revert hd
    generalize (b.net.listener e.listener).queued = ds
    intro hd
    cases ds with
    | nil => cases hd
    | cons a ds => exact List.mem_append_left _ hd

end Bridge
end Handoff
