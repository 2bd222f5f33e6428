import Handoff.Proofs.Traffic.Advance

namespace Handoff

/-- Steps a pump makes at most once its listener is closed. -/
def Pump.rest : Pump → Nat
  | accepting .waiting | holding _ => 2
  | accepting _ | leaving => 1
  | done => 0

theorem Pump.rest_le (p : Pump) : p.rest ≤ 2 := by
  fun_cases Pump.rest p <;> decide

theorem Pump.done_of_rest {p : Pump} (h : p.rest = 0) : p = .done := by
  cases p with
  | accepting phase => cases phase <;> cases h
  | done => rfl
  | _ => cases h

def Pump.handing : Pump → List Descriptor
  | holding d => [d]
  | _ => []

theorem Pump.length_handing_le (p : Pump) : p.handing.length ≤ 1 := by
  fun_cases Pump.handing p <;> simp

namespace Feed

/-- The connections that come through, unless the receiver is shut down first. -/
def passing (f : Feed) : List Descriptor :=
  f.channel.pending ++ f.pump.handing

variable {f f' : Feed} {t t' : Tailnet}

/-- Each step at a closed listener brings the pump nearer to its end. -/
theorem rest_advance (h : f.Advance t f' t') (hc : ¬ t.Open f.listener) :
    f'.pump.rest < f.pump.rest := by
  cases h with
  | enter hp ho => exact absurd ho hc
  | take hp ho => exact absurd ho hc
  | refuse hp | discard hp | leave hp =>
    rw [hp]
    exact Nat.one_pos
  | arrive hp | send hp | giveUp hp =>
    rw [hp]
    exact Nat.one_lt_two

/-- At a closed listener nothing joins what comes through. -/
theorem passing_advance (h : f.Advance t f' t') (hc : ¬ t.Open f.listener) :
    f'.passing <+: f.passing := by
  cases h with
  | enter hp ho => exact absurd ho hc
  | take hp ho => exact absurd ho hc
  | refuse hp | arrive hp | discard hp | leave hp =>
    rw [passing, passing, hp]
    exact List.prefix_rfl
  | giveUp hp =>
    rw [passing, passing, hp]
    exact (List.prefix_append_right_inj _).mpr List.nil_prefix
  | @send d hp =>
    rw [passing, passing, hp]
    simp [Channel.pending, Pump.handing]

theorem receiver_advance (h : f.Advance t f' t') :
    f'.channel.receiverOpen = f.channel.receiverOpen := by
  cases h <;> rfl

theorem pending_advance (h : f.Advance t f' t') (hr : f.channel.receiverOpen = false) :
    f'.channel.pending = f.channel.pending := by
  cases h with
  | send hp hr' => exact absurd hr' (hr ▸ Bool.false_ne_true)
  | _ => rfl

/-- A pump that can do nothing has ended, waits for a connection or for room on the channel. -/
theorem step_eq_none (h : f.step t = none) :
    f.pump = .done ∨ f.pump = .accepting .waiting ∧ (t.listener f.listener).backlog = [] ∨
      f.pump.handing ≠ [] ∧ f.channel.receiverOpen = true ∧ f.channel.isFull = true := by
  have stuck : ∀ {f' t'}, ¬ f.Advance t f' t' := by
    intro f' t' ha
    rw [step_of_advance ha] at h
    cases h
  cases hp : f.pump with
  | accepting phase =>
    cases phase with
    | entering =>
      by_cases ho : t.Open f.listener
      · exact absurd (.enter hp ho) stuck
      · exact absurd (.refuse hp ho) stuck
    | waiting =>
      cases hb : (t.listener f.listener).backlog with
      | nil => exact .inr (.inl ⟨rfl, rfl⟩)
      | cons a rest => exact absurd (.arrive hp hb) stuck
    | arrived d =>
      by_cases ho : t.Open f.listener
      · exact absurd (.take hp ho) stuck
      · exact absurd (.discard hp ho) stuck
  | holding d =>
    cases hr : f.channel.receiverOpen with
    | false => exact absurd (.giveUp hp hr) stuck
    | true =>
      cases hfull : f.channel.isFull with
      | false => exact absurd (.send hp hr hfull) stuck
      | true => exact .inr (.inr ⟨List.cons_ne_nil _ _, rfl, rfl⟩)
  | leaving => exact absurd (.leave hp) stuck
  | done => exact .inl rfl

end Feed
end Handoff
