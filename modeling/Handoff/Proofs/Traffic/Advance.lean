import Handoff.Bridge.Feed
import Handoff.Proofs.Descriptor.Receiving
import Handoff.Proofs.Tailnet.Dialing

namespace Handoff.Feed

inductive Advance (f : Feed) (t : Tailnet) : Feed → Tailnet → Prop where
  | enter : f.pump = .accepting .entering → t.Open f.listener →
    Advance f t { f with pump := .accepting .waiting } t
  | refuse : f.pump = .accepting .entering → ¬ t.Open f.listener → Advance f t f.finish t
  | arrive {a rest} : f.pump = .accepting .waiting → (t.listener f.listener).backlog = a :: rest →
    Advance f t { f with pump := .accepting (.arrived ⟨a.stream, .far⟩) }
      (t.setListener f.listener { t.listener f.listener with backlog := rest })
  | take {d} : f.pump = .accepting (.arrived d) → t.Open f.listener →
    Advance f t { f with pump := .holding d } t
  | discard {d} : f.pump = .accepting (.arrived d) → ¬ t.Open f.listener →
    Advance f t f.finish { t with streams := t.streams.close d }
  | send {d} : f.pump = .holding d → f.channel.receiverOpen = true → f.channel.isFull = false →
    Advance f t { f with
      channel := { f.channel with queue := f.channel.queue ++ [⟨1, [d]⟩] }
      pump := .accepting .entering } t
  | giveUp {d} : f.pump = .holding d → f.channel.receiverOpen = false →
    Advance f t { f with pump := .leaving } { t with streams := t.streams.close d }
  | leave : f.pump = .leaving → Advance f t f.finish (t.closeListener f.listener)

section Step
variable {f f' : Feed} {t t' : Tailnet}

theorem step_accepting {phase : AcceptPhase} (h : f.pump = .accepting phase) :
    f.step t = match Tailnet.acceptStep f.listener phase t with
      | (.blocked, _) => none
      | (.proceeds phase, t) => some ({ f with pump := .accepting phase }, t)
      | (.accepted d, t) => some ({ f with pump := .holding d }, t)
      | (.failed _, t) => some (f.finish, t)
      | (.panicked, t) => some (f.finish, t) := by
  unfold step
  rw [h]
  dsimp only
  rw [show (Network.acceptStep f.listener phase t : AcceptStep × Tailnet) =
    Tailnet.acceptStep f.listener phase t from rfl]
  generalize Tailnet.acceptStep f.listener phase t = r
  obtain ⟨r, t'⟩ := r
  cases r <;> rfl

theorem step_holding {d : Descriptor} (h : f.pump = .holding d) : f.step t = f.deliver d t := by
  unfold step
  rw [h]

theorem advance_of_step (h : f.step t = some (f', t')) : f.Advance t f' t' := by
  cases hp : f.pump with
  | accepting phase =>
    rw [step_accepting hp] at h
    cases phase with
    | entering =>
      by_cases ho : t.Open f.listener
      · rw [Tailnet.acceptStep_entering ho] at h
        cases h
        exact .enter hp ho
      · rw [Tailnet.acceptStep_entering_closed ho] at h
        cases h
        exact .refuse hp ho
    | waiting =>
      rw [Tailnet.acceptStep_waiting] at h
      cases hb : (t.listener f.listener).backlog with
      | nil =>
        rw [hb] at h
        cases h
      | cons a rest =>
        rw [hb] at h
        cases h
        exact .arrive hp hb
    | arrived d =>
      by_cases ho : t.Open f.listener
      · rw [Tailnet.acceptStep_arrived ho] at h
        cases h
        exact .take hp ho
      · rw [Tailnet.acceptStep_arrived_closed ho] at h
        cases h
        exact .discard hp ho
  | holding d =>
    rw [step_holding hp] at h
    unfold deliver at h
    cases hr : f.channel.receiverOpen with
    | true =>
      rw [hr, Bool.true_and] at h
      split at h
      · cases h
      · rename_i hfull
        rw [Channel.send_open hr] at h
        cases h
        exact .send hp hr (Bool.not_eq_true _ ▸ hfull)
    | false =>
      rw [hr, Bool.false_and, if_neg Bool.false_ne_true, Channel.send_shut hr] at h
      cases h
      exact .giveUp hp hr
  | leaving =>
    unfold step at h
    rw [hp] at h
    cases h
    exact .leave hp
  | done =>
    unfold step at h
    rw [hp] at h
    cases h

theorem step_of_advance (h : f.Advance t f' t') : f.step t = some (f', t') := by
  cases h with
  | enter hp ho => rw [step_accepting hp, Tailnet.acceptStep_entering ho]
  | refuse hp ho => rw [step_accepting hp, Tailnet.acceptStep_entering_closed ho]
  | arrive hp hb => rw [step_accepting hp, Tailnet.acceptStep_waiting, hb]
  | take hp ho => rw [step_accepting hp, Tailnet.acceptStep_arrived ho]
  | discard hp ho => rw [step_accepting hp, Tailnet.acceptStep_arrived_closed ho]
  | send hp hr hfull => rw [step_holding hp, deliver, hr, hfull, Channel.send_open hr]; rfl
  | giveUp hp hr => rw [step_holding hp, deliver, hr, Channel.send_shut hr]; rfl
  | leave hp =>
    unfold step
    rw [hp]
    rfl

/-- What every step of a pump keeps is kept however long the pump is left to itself. -/
theorem steps_keep {P : Feed → Tailnet → Prop}
    (hstep : ∀ f t f' t', P f t → f.Advance t f' t' → P f' t') (n : Nat) (h : P f t) :
    P (f.steps n t).1 (f.steps n t).2 := by
  induction n generalizing f t with
  | zero => exact h
  | succ n ih =>
    unfold steps
    cases hs : f.step t with
    | none => exact h
    | some r => exact ih (hstep f t r.1 r.2 h (advance_of_step hs))

theorem listener_advance (h : f.Advance t f' t') : f'.listener = f.listener := by
  cases h <;> rfl

theorem listener_steps (n : Nat) (f : Feed) (t : Tailnet) :
    (f.steps n t).1.listener = f.listener :=
  steps_keep (P := fun f' _ => f'.listener = f.listener)
    (fun _ _ _ _ h ha => (listener_advance ha).trans h) n rfl

/-- No pump does anything to a node. -/
theorem node_advance (h : f.Advance t f' t') : t'.node = t.node := by
  cases h with
  | leave => exact Tailnet.node_closeListener ..
  | _ => rfl

theorem node_steps (n : Nat) (f : Feed) (t : Tailnet) : (f.steps n t).2.node = t.node :=
  steps_keep (P := fun _ t' => t'.node = t.node)
    (fun _ _ _ _ h ha => (node_advance ha).trans h) n rfl

end Step
end Handoff.Feed
