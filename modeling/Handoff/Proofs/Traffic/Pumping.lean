import Handoff.Proofs.Traffic.Advance
import Handoff.Proofs.Traffic.Moving

namespace Handoff.Traffic
variable {net net' : Tailnet} {tables : Nat → Tables} {waiting : List Waiter} {log : List Event}
  {i : Nat} {b : Bridge Tailnet} {f f' : Feed} {k : FeedId}

/-- A pump moves nothing but what waits at its own listener, unless it closes it. -/
theorem moves_advance (hw : net.Wired) (h : f.Advance net f' net') :
    (∃ backlog, net.Moves net' f.listener backlog) ∨ net.Calm net' ∧ ¬ net'.Open f.listener := by
  cases h with
  | enter | refuse | take | send => exact .inl ⟨_, (Tailnet.Calm.refl hw).moves rfl⟩
  | arrive =>
    exact .inl ⟨_, Tailnet.moves_setBacklog hw _ _ net.streams (Nat.le_refl _) net.ports⟩
  | discard | giveUp =>
    exact .inl ⟨_, (Tailnet.calm_withStreams hw
      (Nat.le_of_eq (Tailnet.count_close ..).symm)).moves rfl⟩
  | leave => exact .inr ⟨Tailnet.calm_closeListener hw _, Tailnet.closed_closeListener _ _⟩

/-- At an open listener a pump loses nothing: what it takes off the socket it has in its hand, and
what it hands over comes last on the channel. -/
theorem Line.advance {h : Handle} {e : ListenerEntry} (hline : Line net log f i h e)
    (he : e.listener = f.listener) (ho : net.Open f.listener) (hs : f.Advance net f' net') :
    Line net' log f' i h e := by
  cases hs with
  | enter hp | take hp =>
    exact { hline with
      moving := ⟨.waiting, by simp⟩
      balance := by simpa only [hp, Pump.held] using hline.balance }
  | refuse _ hc | discard _ hc => exact absurd ho hc
  | @arrive a rest hp hb =>
    have hq : (net.listener e.listener).queued =
        ⟨a.stream, .far⟩ :: rest.map fun a => ⟨a.stream, .far⟩ := by
      rw [Tailnet.Listener.queued, he, hb, List.map_cons]
    have hq' : ((net.setListener f.listener { net.listener f.listener with
        backlog := rest }).listener e.listener).queued =
          rest.map fun a => ⟨a.stream, .far⟩ := by
      rw [he, Tailnet.Listener.queued, Tailnet.listener_setListener, if_pos rfl]
    exact { hline with
      moving := ⟨_, .inl rfl⟩
      balance := by
        rw [hline.balance, hq, hq', hp]
        simp [Pump.held] }
  | @send d hp =>
    exact { hline with
      marked := fun m hm => by
        rcases List.mem_append.mp hm with hm | hm
        · exact hline.marked m hm
        · exact ⟨d, List.mem_singleton.mp hm⟩
      moving := ⟨.entering, .inl rfl⟩
      balance := by
        rw [hline.balance, hp]
        simp [Pump.held, Channel.pending] }
  | giveUp _ hr => exact absurd (hline.receiver.symm.trans hr) Bool.false_ne_true.symm
  | leave hp =>
    obtain ⟨phase, hm | ⟨d, hm⟩⟩ := hline.moving
    · cases hp.symm.trans hm
    · cases hp.symm.trans hm

theorem fits_setFeed (h : Fits tables waiting log i b) (hk : k < b.feeds)
    (hf : f.listener = (b.feed k).listener) (hc : ¬ b.net.Open (b.feed k).listener) :
    Fits tables waiting log i (b.setFeed k f) := by
  have hfits : Fits tables waiting (log ++ []) i (b.setFeed k f) :=
    h.at_feed hk ((Tailnet.Calm.refl h.wired).moves rfl) (alikeBut_setFeed b.toTables k f hf)
      (fun _ hx => absurd hx List.not_mem_nil) fun _ _ _ _ _ ho _ => absurd ho hc
  rwa [List.append_nil] at hfits

theorem fits_pump (h : Fits tables waiting log i b) (hk : k < b.feeds)
    (hs : (b.feed k).step b.net = some (f', net')) :
    Fits tables waiting log i ({ b with net := net' }.setFeed k f') := by
  have ha := Feed.advance_of_step hs
  have hf := Feed.listener_advance ha
  rcases moves_advance h.wired ha with ⟨backlog, hm⟩ | ⟨hc, hclosed⟩
  · have hfits : Fits tables waiting (log ++ []) i ({ b with net := net' }.setFeed k f') :=
      h.at_feed hk hm (alikeBut_setFeed b.toTables k f' hf)
        (fun _ hx => absurd hx List.not_mem_nil) fun x e _ _ hel ho hline => by
          have hf' : (({ b with net := net' } : Bridge Tailnet).setFeed k f').feed k = f' :=
            assign_same ..
          rw [List.append_nil, hf']
          exact hline.advance hel (hm.open ho) ha
    rwa [List.append_nil] at hfits
  · exact fits_setFeed (b := { b with net := net' }) (h.update hc (.refl _)) hk hf hclosed

theorem listener_sweep (b : Bridge Tailnet) (i k : FeedId) :
    ((b.sweep i).feed k).listener = (b.feed k).listener := by
  unfold Bridge.sweep Bridge.setFeed
  exact listener_assign (by rfl) k

theorem calm_sweep (hw : b.net.Wired) (k : FeedId) : b.net.Calm (b.sweep k).net :=
  Tailnet.calm_withStreams hw (Nat.le_of_eq (Tailnet.count_closeAll b.net.streams _).symm)

/-- A channel is swept only when its listener is closed. -/
theorem fits_sweep (h : Fits tables waiting log i b) {k : FeedId} (hk : k < b.feeds) :
    Fits tables waiting log i (b.sweep k) := by
  have hswept : Fits tables waiting (log ++ []) i (b.sweep k) :=
    h.at_feed hk ((calm_sweep h.wired k).moves rfl) (alikeBut_setFeed b.toTables k _ rfl)
      (fun _ hx => absurd hx List.not_mem_nil) fun x e _ _ _ _ hline => by
        have hkept : b.isDeserted k = false := by
          rw [Bridge.isDeserted, hline.receiver]
          exact Bool.and_false _
        rw [List.append_nil, Bridge.feed_sweep, hkept]
        exact { hline with }
  rwa [List.append_nil] at hswept

end Handoff.Traffic
