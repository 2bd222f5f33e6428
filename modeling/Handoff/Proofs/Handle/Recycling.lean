import Handoff.Proofs.Handle.History

namespace Handoff.HandleTable

section Recycling
variable {α : Type} {kind : HandleKind} {base : UInt32}
  {log before between after : List (Moment α)} {t : HandleTable α} {m m' : Moment α}
  {h v : Handle} {a b : α}

/-- After `before`, `between` has come by `v`: it was issued, or it was live when a search went over
it. -/
def Visited (before between : List (Moment α)) (v : Handle) : Prop :=
  ∃ front x back, between = front ++ x :: back ∧
    ((∃ a, x.Issues v a) ∨ (x.Skips v ∧ ∃ a, Holds (before ++ front) v a))

theorem Visited.append (hv : Visited before between v) (rest : List (Moment α)) :
    Visited before (between ++ rest) v := by
  obtain ⟨front, x, back, rfl, hx⟩ := hv
  exact ⟨front, x, back ++ rest, by simp, hx⟩

theorem Visited.last (hx : (∃ a, m.Issues v a) ∨ (m.Skips v ∧ ∃ a, Holds (before ++ between) v a)) :
    Visited before (between ++ [m]) v :=
  ⟨between, m, [], rfl, hx⟩

/-- The `k` values after `h` in the cycle have all been visited, and the next search starts behind
them. -/
def Walked (base : UInt32) (before between : List (Moment α)) (h : Handle) (cursor : UInt32)
    (k : Nat) : Prop :=
  cursor = (advance base)^[k] (advance base h.raw) ∧
    ∀ i < k, Visited before between ⟨(advance base)^[i] (advance base h.raw)⟩

/-- A search goes on where the last one ended, over live values only. -/
theorem Walked.search (hw : Walked base before between h t.cursor k)
    (holds : ∀ v a, t.find? v = some a → Holds (before ++ between) v a) (hbase : t.base = base)
    (a : α) (i : Nat) (hi : i < k + t.skipped.length) :
    Visited before (between ++ [⟨t, .allocate a⟩]) ⟨(advance base)^[i] (advance base h.raw)⟩ := by
  rcases Nat.lt_or_ge i k with hlt | hge
  · exact (hw.2 i hlt).append _
  · obtain ⟨j, rfl⟩ := Nat.exists_eq_add_of_le hge
    have hj : j < t.skipped.length := Nat.lt_of_add_lt_add_left hi
    have hval : (advance base)^[k + j] (advance base h.raw) = (advance base)^[j] t.cursor := by
      rw [Nat.add_comm, Function.iterate_add_apply, hw.1]
    have hskip : (advance base)^[j] t.cursor ∈ t.skipped := by
      unfold skipped at hj ⊢
      rw [passed_eq, hbase]
      exact List.mem_map.mpr ⟨j, List.mem_range.mpr hj, rfl⟩
    obtain ⟨c, hc⟩ := isLive_eq_true_iff.mp (isLive_passed hskip)
    rw [hval]
    exact .last (.inr ⟨⟨⟨a, rfl⟩, hskip⟩, c, holds _ _ hc⟩)

theorem Walked.allocate (hw : Walked base before between h t.cursor k)
    (holds : ∀ v a, t.find? v = some a → Holds (before ++ between) v a) (hbase : t.base = base)
    (a : α) :
    Walked base before (between ++ [⟨t, .allocate a⟩]) h (advance base t.nextRaw)
      (k + t.skipped.length + 1) := by
  have hnext : t.nextRaw = (advance base)^[k + t.skipped.length] (advance base h.raw) := by
    rw [nextRaw_eq, hw.1, hbase, Nat.add_comm, Function.iterate_add_apply]
  refine ⟨by rw [Function.iterate_succ_apply', ← hnext], fun i hi => ?_⟩
  rcases Nat.lt_succ_iff_lt_or_eq.mp hi with hi | rfl
  · exact hw.search holds hbase a i hi
  · rw [← hnext]
    exact .last (.inl ⟨a, rfl, rfl⟩)

theorem cursor_serve_of_not_allocate {r : Request α} (hr : ∀ a, r ≠ .allocate a) :
    (t.serve r).2.cursor = t.cursor := by
  cases r with
  | allocate a => exact absurd rfl (hr a)
  | close x =>
    simp only [serve, close_eq]
    cases t.find? x <;> rfl
  | _ => rfl

/-- Ever since `h` was issued, the search has gone round the cycle value by value. -/
theorem Run.walked (run : Run kind base log t) (hb : base ≤ maxRaw)
    (he : log = before ++ m :: between) (hi : m.Issues h a) :
    ∃ k, Walked base (before ++ [m]) between h t.cursor k := by
  induction run generalizing between with
  | start => simp at he
  | @step log t r run room ih =>
    rcases concat_eq_split he with ⟨-, rfl, rfl⟩ | ⟨rest, rfl, rfl⟩
    · obtain ⟨rfl, ha⟩ := hi
      simp only [Moment.answer, serve, Answer.handle.injEq] at ha
      subst ha
      refine ⟨0, ?_, by simp⟩
      change advance t.base t.nextRaw = advance base t.nextRaw
      rw [run.base_eq]
    · obtain ⟨k, hw⟩ := ih rfl
      have holds : ∀ v a, t.find? v = some a → Holds (before ++ [m] ++ rest) v a := by
        intro v a hv
        simpa using (run.find?_eq_some_iff hb).mp hv
      cases r with
      | allocate c =>
        refine ⟨k + t.skipped.length + 1, ?_⟩
        change Walked base _ _ h (advance t.base t.nextRaw) _
        rw [run.base_eq]
        exact hw.allocate holds run.base_eq c
      | _ =>
        refine ⟨k, ?_, fun i hi => (hw.2 i hi).append _⟩
        rw [cursor_serve_of_not_allocate (by simp)]
        exact hw.1

/-- Between two allocations of the same value the search has come by every other value. -/
theorem Run.visited (run : Run kind base log t) (hb : base ≤ maxRaw)
    (he : log = before ++ m :: (between ++ m' :: after)) (hm : m.Issues h a) (hm' : m'.Issues h b)
    (hv : InRange base v.raw) (hne : v ≠ h) : Visited (before ++ [m]) (between ++ [m']) v := by
  have hl : log = (before ++ m :: between) ++ m' :: after := by simpa using he
  obtain ⟨run', -⟩ := run.at hl
  obtain ⟨t', r⟩ := m'
  obtain ⟨rfl, hans⟩ := hm'
  simp only [Moment.answer, serve, Answer.handle.injEq] at hans
  obtain ⟨k, hw⟩ := run'.walked hb rfl hm
  have hbase : t'.base = base := run'.base_eq
  have holds : ∀ v a, t'.find? v = some a → Holds (before ++ [m] ++ between) v a := by
    intro v a hv
    simpa using (run'.find?_eq_some_iff hb).mp hv
  -- The search that ended at `h` again started behind `h`, so it went a whole round.
  have hround : (advance base)^[k + t'.skipped.length + 1] h.raw = h.raw := by
    have hnext : t'.nextRaw = h.raw := congrArg Handle.raw hans
    rw [Function.iterate_succ_apply, Nat.add_comm, Function.iterate_add_apply, ← hw.1, ← hbase,
      ← nextRaw_eq, hnext]
  have hh : InRange base h.raw := by
    have := inRange_nextRaw (run'.tidy hb)
    rw [hbase] at this
    rwa [← congrArg Handle.raw hans]
  have hspan := span_le_of_iterate_eq hh (Nat.succ_pos _) hround
  obtain ⟨i, hi, hiv⟩ := exists_iterate hh hv
  cases i with
  | zero => exact absurd (congrArg Handle.mk hiv.symm) hne
  | succ i =>
    rw [Function.iterate_succ_apply] at hiv
    have := hw.search holds hbase b i (by dsimp only at hspan ⊢; omega)
    rwa [hiv] at this

/-- A value comes again only when every value has been issued. -/
theorem Run.issued_of_reissued (run : Run kind base (log ++ [m']) t) (hb : base ≤ maxRaw)
    (hm' : m'.Issues h b) (hmem : h ∈ issued log) (hv : InRange base v.raw) : v ∈ issued log := by
  by_cases hne : v = h
  · exact hne ▸ hmem
  · obtain ⟨x, hx, a, hxi⟩ := mem_issued.mp hmem
    obtain ⟨before, between, rfl⟩ := List.append_of_mem hx
    have hl : before ++ x :: between ++ [m'] = before ++ x :: (between ++ m' :: []) := by simp
    obtain ⟨front, y, back, hs, hy⟩ := run.visited hb hl hxi hm' hv hne
    rcases concat_eq_split hs with ⟨rfl, rfl, -⟩ | ⟨rest, -, rfl⟩
    · rcases hy with ⟨c, hc⟩ | ⟨-, c, hc⟩
      · obtain ⟨-, h₁⟩ := hc
        obtain ⟨-, h₂⟩ := hm'
        rw [h₁, Answer.handle.injEq] at h₂
        exact absurd h₂ hne
      · simpa using hc.mem_issued
    · rcases hy with ⟨c, hc⟩ | ⟨-, c, hc⟩
      · exact mem_issued.mpr ⟨y, by simp, c, hc⟩
      · obtain ⟨z, hz, d, hd⟩ := mem_issued.mp hc.mem_issued
        refine mem_issued.mpr ⟨z, ?_, d, hd⟩
        simp only [List.mem_append, List.mem_cons] at hz ⊢
        tauto

theorem span_le_length_issued (hb : base ≤ maxRaw)
    (hall : ∀ v : Handle, InRange base v.raw → v ∈ issued log) :
    span base ≤ (issued log).length := by
  have hraw : ∀ v, InRange base v → v ∈ (issued log).map Handle.raw := fun v hv =>
    List.mem_map.mpr ⟨⟨v⟩, hall ⟨v⟩ hv, rfl⟩
  simpa using span_le_length hb hraw

/-- The first round of allocations issues every value once, whatever is closed meanwhile. -/
theorem Run.nodup_take_issued (run : Run kind base log t) (hb : base ≤ maxRaw) :
    ((issued log).take (span base)).Nodup := by
  induction run with
  | start => simp [issued]
  | @step log t r run room ih =>
    have hlog : issued (log ++ [⟨t, r⟩]) =
        issued log ++ (Moment.issued? ⟨t, r⟩).toList := by
      cases hi : Moment.issued? ⟨t, r⟩ <;> simp [issued, hi]
    rw [hlog]
    cases hi : Moment.issued? ⟨t, r⟩ with
    | none => simpa using ih
    | some h =>
      rw [Option.toList_some]
      rcases Nat.lt_or_ge (issued log).length (span base) with hlt | hge
      · rw [List.take_of_length_le (by simp; omega)]
        rw [List.take_of_length_le (by omega)] at ih
        refine List.nodup_append.mpr ⟨ih, List.nodup_singleton h, fun x hx y hy hxy => ?_⟩
        rw [List.mem_singleton] at hy
        subst hxy hy
        obtain ⟨b, hissue⟩ := issued?_eq_some_iff.mp hi
        have hall (v : Handle) := Run.issued_of_reissued (v := v) (.step run room) hb hissue hx
        have := span_le_length_issued hb hall
        omega
      · rwa [List.take_append_of_le_length hge]

/-- Stale handles are told from live ones over a whole run, and a value is issued again as late as
possible. -/
theorem handles_over_run (hb : base ≤ maxRaw) (run : Run kind base log t) :
    (∀ before m after, log = before ++ m :: after → Answered base before m) ∧
    (∀ before m between m' after h a b, log = before ++ m :: (between ++ m' :: after) →
      m.Issues h a → m'.Issues h b → ∀ v : Handle, InRange base v.raw → v ≠ h →
        (∃ x ∈ between, ∃ c, x.Issues v c) ∨
        ∃ front x back, between ++ [m'] = front ++ x :: back ∧ x.Skips v ∧
          ∃ c, Holds (before ++ m :: front) v c) ∧
    ((issued log).take (span base)).Nodup := by
  refine ⟨fun before m after he => ?_, ?_, run.nodup_take_issued hb⟩
  · obtain ⟨run', room⟩ := run.at he
    exact answered_of_run run' hb room
  · intro before m between m' after h a b he hm hm' v hv hne
    obtain ⟨front, x, back, hs, hx⟩ := run.visited hb he hm hm' hv hne
    rcases hx with ⟨c, hc⟩ | ⟨hskip, c, hc⟩
    · left
      rcases concat_eq_split hs with ⟨-, rfl, -⟩ | ⟨rest, -, rfl⟩
      · -- The value that comes back is `h` alone.
        have he : v = h := by simpa [hc.2] using hm'.2
        exact absurd he hne
      · exact ⟨x, by simp, c, hc⟩
    · right
      exact ⟨front, x, back, hs, hskip, c, by simpa using hc⟩

/-- Of two values one is closed and comes back past the largest one, over the other. -/
theorem handles_over_run_of_two :
    ∃ (log : List (Moment Nat)) (t : HandleTable Nat),
      maxRaw - 1 ≤ maxRaw ∧ Run .conn (maxRaw - 1) log t ∧
      issued log = [⟨maxRaw - 1⟩, ⟨maxRaw⟩, ⟨maxRaw⟩] ∧
      ((issued log).take (span (maxRaw - 1))).Nodup := by
  let r₁ := (empty .conn (maxRaw - 1)).serve (.allocate 7)
  let r₂ := r₁.2.serve (.allocate 8)
  let r₃ := r₂.2.serve (.close ⟨maxRaw⟩)
  have run : Run .conn (maxRaw - 1)
      [⟨empty .conn (maxRaw - 1), .allocate 7⟩, ⟨r₁.2, .allocate 8⟩, ⟨r₂.2, .close ⟨maxRaw⟩⟩,
        ⟨r₃.2, .allocate 9⟩] (r₃.2.serve (.allocate 9)).2 := by
    refine .step (.step (.step (.step .start ?_) ?_) (by simp)) ?_
    · exact fun _ _ => ⟨maxRaw, by decide, by decide⟩
    · exact fun _ _ => ⟨maxRaw, by decide, by decide⟩
    · exact fun _ _ => ⟨maxRaw, by decide, by decide⟩
  exact ⟨_, _, by decide, run, by decide, (handles_over_run (by decide) run).2.2⟩

end Recycling
end Handoff.HandleTable
