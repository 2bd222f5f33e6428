import Handoff.Proofs.Race.Pump
import Handoff.Proofs.Tailnet.Closing
import Handoff.Proofs.Traffic.Sound

namespace Handoff

/-- What has become of the connection that wakes the pump of a closed listener. -/
inductive WakeUp where
  | pending
  | made (id : StreamId)
  | failed
  deriving DecidableEq

structure Tailnet.Connects (t t' : Tailnet) (l : ListenerId) (a : Tailnet.Arrival) (id : StreamId) :
    Prop where
  id : id = t.streams.count
  count : t'.streams.count = t.streams.count + 1
  here : t'.listener l = { t.listener l with backlog := (t.listener l).backlog ++ [a] }
  bound : t'.bound = t.bound
  loopbackUp : t'.loopbackUp = t.loopbackUp

theorem Tailnet.connects_of_connect {t t' : Tailnet} {l : ListenerId} {backing : Endpoint}
    {arrival : StreamId → Tailnet.Arrival} {id : StreamId} (hb : t.bound backing = some l)
    (h : t.connect backing arrival = .ok (id, t')) : t.Connects t' l (arrival id) id := by
  obtain ⟨k, hk, rfl, rfl⟩ := Tailnet.connect_ok h
  obtain rfl := Option.some.inj (hb.symm.trans hk)
  exact ⟨rfl, rfl, assign_same .., rfl, rfl⟩

theorem Pump.held_of_handing {p : Pump} {d : Descriptor} (h : d ∈ p.handing) :
    d ∈ p.held.toList := by
  cases p with
  | holding x => exact h
  | _ => cases h

/-- What goes through a feed while its listener is closed. An accept has taken the connections
`taken` off its channel. The pump has put `sent` of them on it and made `steps` steps since the
listener is closed. -/
structure Flow (t : Tailnet) (f : Feed) (taken : List Descriptor) (w : WakeUp) (sent steps : Nat) :
    Prop where
  marked : ∀ m ∈ f.channel.queue, ∃ d, m = ⟨1, [d]⟩
  ended : f.channel.senderOpen = false ↔ f.pump = .done
  leaving : f.pump = .leaving → f.channel.receiverOpen = false
  shut : f.channel.receiverOpen = false → ¬ t.Open f.listener
  /-- Connections on their way are made already. -/
  known : ∀ d ∈ taken ++ f.channel.pending ++ f.pump.held.toList ++
    (t.listener f.listener).queued, d.stream < t.streams.count
  still : t.Open f.listener → sent = 0 ∧ steps = 0
  sent : sent + f.pump.handing.length ≤ 1
  steps : steps + f.pump.rest ≤ 2
  made : ∀ id, w = .made id → ¬ t.Open f.listener
  /-- The pump waits no more once it has been woken. -/
  awake : ∀ id, w = .made id → f.pump = .accepting .waiting →
    (t.listener f.listener).backlog ≠ []
  /-- What woke the pump goes nowhere. -/
  hidden : ∀ id, w = .made id →
    ∀ d ∈ taken ++ f.passing, d.stream ≠ id

namespace Flow
variable {t t' : Tailnet} {f f' : Feed} {taken : List Descriptor} {w : WakeUp} {sent steps : Nat}

/-- Of the network only the listener and the number of streams are looked at. -/
theorem still_there (h : Flow t f taken w sent steps)
    (hl : t'.listener f.listener = t.listener f.listener)
    (hc : t.streams.count ≤ t'.streams.count) : Flow t' f taken w sent steps := by
  have ho : t'.Open f.listener ↔ t.Open f.listener := by rw [Tailnet.Open, hl]; rfl
  exact { h with
    shut := fun hr => ho.not.mpr (h.shut hr)
    known := fun d hd => Nat.lt_of_lt_of_le (h.known d (by rwa [hl] at hd)) hc
    still := fun h' => h.still (ho.mp h')
    made := fun id hw => ho.not.mpr (h.made id hw)
    awake := fun id hw hp => by rw [hl]; exact h.awake id hw hp }

/-- The closed flag is set: what the pump does counts from here on. -/
theorem mark (h : Flow t f taken w sent steps) (ho : t.Open f.listener) :
    Flow (t.markClosed f.listener) f taken w sent steps := by
  have hl : (t.markClosed f.listener).listener f.listener =
      { t.listener f.listener with closed := true } := assign_same ..
  have hc : ¬ (t.markClosed f.listener).Open f.listener := by
    rw [Tailnet.Open, hl]
    simp
  exact { h with
    shut := fun _ => hc
    known := fun d hd => h.known d (by rwa [hl] at hd)
    still := fun ho' => absurd ho' hc
    made := fun _ _ => hc
    awake := fun id hw => absurd ho (h.made id hw) }

/-- A connection reaches the socket and waits there behind the others. -/
theorem arrives {a : Tailnet.Arrival} (h : Flow t f taken w sent steps)
    (hc : t.Connects t' f.listener a a.stream) : Flow t' f taken w sent steps := by
  have ho : t'.Open f.listener ↔ t.Open f.listener := by rw [Tailnet.Open, hc.here]; rfl
  exact { h with
    shut := fun hr => ho.not.mpr (h.shut hr)
    known := fun d hd => by
      rw [hc.here, Tailnet.Listener.queued, List.map_append, ← List.append_assoc] at hd
      rw [hc.count]
      rcases List.mem_append.mp hd with hd | hd
      · exact Nat.lt_succ_of_lt (h.known d hd)
      · rw [List.mem_singleton.mp hd]
        exact hc.id ▸ Nat.lt_succ_self _
    still := fun ho' => h.still (ho.mp ho')
    made := fun id hw => ho.not.mpr (h.made id hw)
    awake := fun _ _ _ => by
      rw [hc.here]
      exact List.append_ne_nil_of_right_ne_nil _ (List.cons_ne_nil _ _) }

/-- The connection that wakes the pump waits at the socket. None on its way is that one. -/
theorem wake {id : StreamId} (h : Flow t f taken w sent steps) (hc : ¬ t.Open f.listener)
    (hb : t.Connects t' f.listener (.wakeUp id) id) : Flow t' f taken (.made id) sent steps := by
  have ha := h.arrives hb
  have ho : t'.Open f.listener ↔ t.Open f.listener := by rw [Tailnet.Open, hb.here]; rfl
  exact { ha with
    made := fun _ _ => ho.not.mpr hc
    awake := fun _ _ _ => by
      rw [hb.here]
      exact List.append_ne_nil_of_right_ne_nil _ (List.cons_ne_nil _ _)
    hidden := fun _ hid d hd => by
      obtain rfl := WakeUp.made.inj hid
      rw [hb.id]
      refine Nat.ne_of_lt (h.known d ?_)
      rw [Feed.passing, ← List.append_assoc] at hd
      rcases List.mem_append.mp hd with hd | hd
      · exact List.mem_append_left _ (List.mem_append_left _ hd)
      · exact List.mem_append_left _ (List.mem_append_right _ (Pump.held_of_handing hd)) }

theorem unwoken (h : Flow t f taken w sent steps) : Flow t f taken .failed sent steps :=
  { h with
    made := fun _ hw => by cases hw
    awake := fun _ hw => by cases hw
    hidden := fun _ hw => by cases hw }

/-- Once the listener is closed the receiver may be shut down. -/
theorem shutdown (h : Flow t f taken w sent steps) (hc : ¬ t.Open f.listener) :
    Flow t { f with channel := f.channel.shutdown } taken w sent steps :=
  { h with
    leaving := fun _ => rfl
    shut := fun _ => hc }

/-- An accept takes the first connection off the channel. -/
theorem take {d : Descriptor} {rest : List (Message Descriptor)}
    (h : Flow t f [] w sent steps) (hq : f.channel.queue = ⟨1, [d]⟩ :: rest) :
    Flow t { f with channel := { f.channel with queue := rest } } [d] w sent steps := by
  have hp : f.channel.pending = d :: rest.flatMap (·.descriptors) := by
    rw [Channel.pending, hq]
    rfl
  exact { h with
    marked := fun m hm => h.marked m (hq ▸ List.mem_cons_of_mem _ hm)
    known := fun x hx => h.known x (by rw [hp]; exact hx)
    hidden := fun id hw x hx => h.hidden id hw x (by rw [Feed.passing, hp]; exact hx) }

/-- The pump lets go of what it has in its hands. -/
theorem known_rid (h : Flow t f taken w sent steps) :
    ∀ d ∈ taken ++ f.channel.pending ++ [] ++ (t.listener f.listener).queued,
      d.stream < t.streams.count := by
  intro d hd
  apply h.known
  simp only [List.mem_append, List.not_mem_nil, or_false] at hd ⊢
  exact hd.imp_left .inl

theorem hidden_rid (h : Flow t f taken w sent steps) :
    ∀ id, w = .made id → ∀ d ∈ taken ++ (f.channel.pending ++ []), d.stream ≠ id := by
  intro id hw d hd
  rw [List.append_nil] at hd
  refine h.hidden id hw d ?_
  rw [Feed.passing, ← List.append_assoc]
  exact List.mem_append_left _ hd

/-- The pump ends, which leaves what is on the channel. -/
theorem finish (h : Flow t f taken w sent steps) (hc : ¬ t.Open f.listener)
    (hp : 0 < f.pump.rest) : Flow t f.finish taken w sent (steps + 1) where
  marked := h.marked
  ended := ⟨fun _ => rfl, fun _ => rfl⟩
  leaving := fun hl => by cases hl
  shut := h.shut
  known := h.known_rid
  still := fun ho => absurd ho hc
  sent := Nat.le_trans (Nat.le_add_right ..) h.sent
  steps := by
    have := h.steps
    change steps + 1 + 0 ≤ 2
    omega
  made := h.made
  awake := fun id hw hd => by cases hd
  hidden := h.hidden_rid

/-- The pump's account of what it did since the listener is closed. -/
theorem advance (h : Flow t f taken w sent steps) (ha : f.Advance t f' t') :
    Flow t' f' taken w
      (if t.Open f.listener then sent
        else sent + (f'.channel.queue.length - f.channel.queue.length))
      (if t.Open f.listener then steps else steps + 1) := by
  obtain ⟨l, c, p⟩ := f
  cases ha with
  | enter hp ho =>
    cases hp
    rw [if_pos ho, if_pos ho]
    obtain ⟨hsent, hsteps⟩ := h.still ho
    exact { h with
      ended := by simpa using h.ended
      leaving := fun hl => by cases hl
      steps := by rw [hsteps]; exact Nat.le_refl 2
      awake := fun id hw => absurd ho (h.made id hw) }
  | refuse hp ho =>
    cases hp
    rw [if_neg ho, if_neg ho]
    have hf := h.finish ho Nat.one_pos
    simpa [Feed.finish, Channel.dropSender] using hf
  | @arrive a rest hp hb =>
    cases hp
    let t' := t.setListener l { t.listener l with backlog := rest }
    have hl : t'.listener l = { t.listener l with backlog := rest } := by
      rw [Tailnet.listener_setListener, if_pos rfl]
    have ho : t'.Open l ↔ t.Open l := by rw [Tailnet.Open, hl]; rfl
    have hq : (t.listener l).queued = ⟨a.stream, .far⟩ :: (t'.listener l).queued := by
      rw [Tailnet.Listener.queued, hb, Tailnet.Listener.queued, hl]
      rfl
    have hsteps : steps = 0 := Nat.le_zero.mp (Nat.le_of_add_le_add_right h.steps)
    rw [Nat.sub_self, Nat.add_zero, ite_self]
    exact { h with
      ended := by simpa using h.ended
      leaving := fun hl => by cases hl
      shut := fun hr => ho.not.mpr (h.shut hr)
      known := fun d hd => h.known d (by
        dsimp only at hd ⊢
        rw [hq]
        simpa [Pump.held] using hd)
      still := fun hopen => by
        rw [if_pos (ho.mp hopen)]
        exact h.still (ho.mp hopen)
      steps := by
        rw [hsteps]
        change (if t.Open l then 0 else 1) + 1 ≤ 2
        split <;> decide
      made := fun id hw => ho.not.mpr (h.made id hw)
      awake := fun id hw hp => by cases hp }
  | @take d hp ho =>
    cases hp
    rw [if_pos ho, if_pos ho]
    obtain ⟨hsent, hsteps⟩ := h.still ho
    exact { h with
      ended := by simpa using h.ended
      leaving := fun hl => by cases hl
      sent := by rw [hsent]; exact Nat.le_refl 1
      steps := by rw [hsteps]; exact Nat.le_refl 2
      awake := fun id hw => absurd ho (h.made id hw)
      hidden := fun id hw => absurd ho (h.made id hw) }
  | @discard d hp ho =>
    cases hp
    rw [if_neg ho, if_neg ho]
    have hf : Flow { t with streams := t.streams.close d } _ taken w sent (steps + 1) :=
      (h.finish ho Nat.one_pos).still_there rfl (Nat.le_refl _)
    simpa [Feed.finish, Channel.dropSender] using hf
  | @send d hp hr hfull =>
    cases hp
    have hsent : sent = 0 := Nat.le_zero.mp (Nat.le_of_add_le_add_right h.sent)
    have hsteps : steps = 0 := Nat.le_zero.mp (Nat.le_of_add_le_add_right h.steps)
    dsimp only at hr ⊢
    rw [List.length_append, Nat.add_sub_cancel_left, hsent, hsteps]
    exact {
      marked := fun m hm => by
        rcases List.mem_append.mp hm with hm | hm
        · exact h.marked m hm
        · exact ⟨d, List.mem_singleton.mp hm⟩
      ended := by simpa using h.ended
      leaving := fun hl => by cases hl
      shut := h.shut
      known := fun x hx => h.known x (by
        simpa [Channel.pending, Pump.held] using hx)
      still := fun ho => by rw [if_pos ho, if_pos ho]; exact ⟨rfl, rfl⟩
      sent := by
        change (if t.Open l then 0 else 0 + 1) + 0 ≤ 1
        split <;> decide
      steps := by
        change (if t.Open l then 0 else 0 + 1) + 1 ≤ 2
        split <;> decide
      made := h.made
      awake := fun id hw hp => by cases hp
      hidden := fun id hw x hx => h.hidden id hw x (by
        simpa [Feed.passing, Channel.pending, Pump.handing] using hx) }
  | @giveUp d hp hr =>
    cases hp
    have hsteps : steps = 0 := Nat.le_zero.mp (Nat.le_of_add_le_add_right h.steps)
    have ho := h.shut hr
    rw [if_neg ho, if_neg ho, Nat.sub_self, Nat.add_zero, hsteps]
    have hleft : Flow t ⟨l, c, .leaving⟩ taken w sent 1 := { h with
      ended := by simpa using h.ended
      leaving := fun _ => hr
      known := h.known_rid
      still := fun h' => absurd h' ho
      sent := Nat.le_trans (Nat.le_add_right ..) h.sent
      steps := Nat.le_refl 2
      awake := fun id hw hp => by cases hp
      hidden := h.hidden_rid }
    exact hleft.still_there rfl (Nat.le_refl _)
  | leave hp =>
    cases hp
    have ho := h.shut (h.leaving rfl)
    rw [if_neg ho, if_neg ho, Tailnet.closeListener, if_pos (by simpa [Tailnet.Open] using ho)]
    have hf := h.finish ho Nat.one_pos
    simpa [Feed.finish, Channel.dropSender] using hf

/-- A pump that was woken and has nobody to send to can go on until it ends. -/
theorem can_step {id : StreamId} (h : Flow t f taken (.made id) sent steps)
    (hr : f.channel.receiverOpen = false) :
    f.pump = .done ∨ ∃ f' t', f.step t = some (f', t') := by
  cases hs : f.step t with
  | some r => exact .inr ⟨r.1, r.2, rfl⟩
  | none =>
    rcases Feed.step_eq_none hs with hd | ⟨hp, hb⟩ | ⟨-, hr', -⟩
    · exact .inl hd
    · exact absurd hb (h.awake id rfl hp)
    · exact absurd hr' (hr ▸ Bool.false_ne_true)

/-- Left alone it ends within the steps that it has left. -/
theorem ends {id : StreamId} {n : Nat} (h : Flow t f taken (.made id) sent steps)
    (hr : f.channel.receiverOpen = false) (hn : f.pump.rest ≤ n) :
    (f.steps n t).1.pump = .done := by
  induction n generalizing f t sent steps with
  | zero => exact Pump.done_of_rest (Nat.le_zero.mp hn)
  | succ n ih =>
    unfold Feed.steps
    rcases h.can_step hr with hd | ⟨f', t', hs⟩
    · have hnone : f.step t = none := by
        unfold Feed.step
        rw [hd]
      rw [hnone]
      exact hd
    · rw [hs]
      have ha := Feed.advance_of_step hs
      have hrest := Feed.rest_advance ha (h.made id rfl)
      exact ih (h.advance ha) ((Feed.receiver_advance ha).trans hr) (by omega)

end Flow
end Handoff
