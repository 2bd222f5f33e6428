import Handoff.Proofs.Wire.Pipe

namespace Handoff.Wire.Sink

/-- A front that is written, and a front of what is left after it. -/
theorem written_more {s s' : Sink} {r : Except PipeFault Unit} {n : Nat} {bs : List UInt8}
    (h : ∃ front, front <+: bs.drop n ∧ s'.written = (s.written ++ bs.take n) ++ front ∧
      (r = .ok () → front = bs.drop n)) :
    ∃ front, front <+: bs ∧ s'.written = s.written ++ front ∧ (r = .ok () → front = bs) := by
  obtain ⟨front, hp, hw, hok⟩ := h
  refine ⟨bs.take n ++ front, ?_, ?_, ?_⟩
  · conv => rhs; rw [← List.take_append_drop n bs]
    exact (List.prefix_append_right_inj _).mpr hp
  · rw [hw, List.append_assoc]
  · intro hr
    rw [hok hr, List.take_append_drop]

/-- What a write leaves in the pipe is a front of what was to be written, and a write that goes
well leaves all of it. -/
theorem writeAll_written (s : Sink) (bs : List UInt8) :
    ∃ front, front <+: bs ∧ (s.writeAll bs).2.written = s.written ++ front ∧
      ((s.writeAll bs).1 = .ok () → front = bs) := by
  fun_induction s.writeAll bs with
  | case1 s => exact ⟨[], List.nil_prefix, (List.append_nil _).symm, fun _ => rfl⟩
  | case2 s bs hne writes hw ih => exact ih
  | case3 s bs hne text writes hw =>
    exact ⟨[], List.nil_prefix, (List.append_nil _).symm, fun h => by cases h⟩
  | case4 s bs hne writes hw =>
    exact ⟨[], List.nil_prefix, (List.append_nil _).symm, fun h => by cases h⟩
  | case5 s bs hne n writes hw hn ih => exact written_more ih
  | case6 s bs hne hw k hk ih => exact ih
  | case7 s bs hne hw hk hz =>
    exact ⟨[], List.nil_prefix, (List.append_nil _).symm, fun h => by cases h⟩
  | case8 s bs hne hw hk hz ih => exact written_more ih

theorem flush_written (s : Sink) : s.flush.2.written = s.written := by
  unfold flush
  split
  · rfl
  · rfl
  · split <;> rfl

theorem send_written (s : Sink) (bs : List UInt8) :
    ∃ front, front <+: bs ∧ (s.send bs).2.written = s.written ++ front ∧
      ((s.send bs).1 = .ok () → front = bs) := by
  obtain ⟨front, hp, hw, hok⟩ := s.writeAll_written bs
  refine ⟨front, hp, ?_⟩
  unfold send
  split
  · rename_i f s' he
    rw [he] at hw
    exact ⟨hw, fun h => by cases h⟩
  · rename_i s' he
    rw [he] at hw hok
    exact ⟨by rw [flush_written, hw], fun _ => hok rfl⟩

/-- The pipe takes these responses, one after the other and each of them whole. -/
inductive Sends : Sink → List (List UInt8) → Sink → Prop where
  | none (s) : Sends s [] s
  | more {s s₁ s' bs bss} :
    s.send bs = (.ok (), s₁) → Sends s₁ bss s' → Sends s (bs :: bss) s'

variable {s s' : Sink} {bss : List (List UInt8)}

theorem sends_nil : Sends s [] s' ↔ s = s' := by
  constructor
  · intro h
    cases h
    rfl
  · rintro rfl
    exact .none s

theorem sends_cons {bs : List UInt8} :
    Sends s (bs :: bss) s' ↔ ∃ s₁, s.send bs = (.ok (), s₁) ∧ Sends s₁ bss s' := by
  constructor
  · intro h
    cases h with
    | more hs hss => exact ⟨_, hs, hss⟩
  · rintro ⟨s₁, hs, hss⟩
    exact .more hs hss

theorem sends_append {front back : List (List UInt8)} :
    Sends s (front ++ back) s' ↔ ∃ s₁, Sends s front s₁ ∧ Sends s₁ back s' := by
  induction front generalizing s with
  | nil => simp [sends_nil]
  | cons bs front ih =>
    simp only [List.cons_append, sends_cons, ih]
    constructor
    · rintro ⟨s₁, hs, s₂, hf, hb⟩
      exact ⟨s₂, ⟨s₁, hs, hf⟩, hb⟩
    · rintro ⟨s₂, ⟨s₁, hs, hf⟩, hb⟩
      exact ⟨s₁, hs, s₂, hf, hb⟩

theorem Sends.written (h : Sends s bss s') : s'.written = s.written ++ bss.flatten := by
  induction h with
  | none => simp
  | @more s s₁ s' bs bss hs _ ih =>
    obtain ⟨front, -, hw, hok⟩ := s.send_written bs
    rw [hs] at hw hok
    rw [ih, hw, hok rfl, List.flatten_cons, List.append_assoc]

theorem Unfailing.sends (h : s.Unfailing) (bss : List (List UInt8)) : ∃ s', Sends s bss s' := by
  induction bss generalizing s with
  | nil => exact ⟨s, .none s⟩
  | cons bs bss ih =>
    obtain ⟨s₁, hs, -, hu⟩ := h.send bs
    obtain ⟨s', hss⟩ := ih hu
    exact ⟨s', .more hs hss⟩

end Handoff.Wire.Sink
