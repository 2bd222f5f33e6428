import Handoff.Proofs.Handle.History

/-!
The search for the next free value, that starts at the cursor and goes round. With no bound on its
steps it ends wherever a value is free, at the value where the bounded search of the table ends.
-/

namespace Handoff.HandleTable

/-- The value that comes after `v` where a search goes round from `base` to the largest one. The
sums are those of numbers, so a value after which the next one does not fit in a word would have
none. -/
inductive Follows (base v : UInt32) : UInt32 → Prop where
  | within (w : UInt32) : v < maxRaw → w.toNat = v.toNat + 1 → Follows base v w
  | around : maxRaw ≤ v → Follows base v base

/-- The search for a free value from `v` on, with no bound on its steps: it goes over live values
one by one and ends at the first other one. -/
inductive Searches {α : Type} (t : HandleTable α) : UInt32 → Nat → UInt32 → Prop where
  | found (v : UInt32) : t.isLive v = false → Searches t v 0 v
  | pass {v w found : UInt32} {steps : Nat} : t.isLive v = true → Follows t.base v w →
    Searches t w steps found → Searches t v (steps + 1) found

def cycle (base cursor : UInt32) : List Nat :=
  List.range' cursor.toNat (maxRaw.toNat - cursor.toNat + 1) ++
    List.range' base.toNat (cursor.toNat - base.toNat)

section Cycle
variable {base v w cursor : UInt32}

theorem follows_iff : Follows base v w ↔ w = advance base v := by
  have hmax : maxRaw.toNat = 2147483647 := rfl
  unfold advance
  constructor
  · rintro (⟨_, hlt, hw⟩ | hle)
    · rw [if_neg (UInt32.not_le.mpr hlt)]
      have := UInt32.lt_iff_toNat_lt.mp hlt
      apply UInt32.toNat_inj.mp
      rw [hw, UInt32.toNat_add]
      exact (Nat.mod_eq_of_lt (by simp; omega)).symm
    · rw [if_pos hle]
  · rintro rfl
    split
    · rename_i hle
      exact .around hle
    · rename_i hlt
      have hlt := UInt32.not_le.mp hlt
      have := UInt32.lt_iff_toNat_lt.mp hlt
      refine .within _ hlt ?_
      rw [UInt32.toNat_add]
      exact Nat.mod_eq_of_lt (by simp; omega)

theorem length_cycle (h : InRange base cursor) : (cycle base cursor).length = span base := by
  have h₁ := UInt32.le_iff_toNat_le.mp h.1
  have h₂ := UInt32.le_iff_toNat_le.mp h.2
  simp only [cycle, List.length_append, List.length_range', span]
  omega

/-- The numbers of the cycle are those that `advance` comes by. -/
theorem getElem_cycle (h : InRange base cursor) {i : Nat} (hi : i < (cycle base cursor).length) :
    (cycle base cursor)[i] = ((advance base)^[i] cursor).toNat := by
  obtain ⟨o, ho, hcursor⟩ := h.exists_offset
  rw [length_cycle h] at hi
  have h₂ := UInt32.le_iff_toNat_le.mp h.2
  have hspan : span base = maxRaw.toNat - base.toNat + 1 := rfl
  rw [iterate_toNat h ho hcursor]
  simp only [cycle]
  rcases Nat.lt_or_ge i (maxRaw.toNat - cursor.toNat + 1) with hlt | hge
  · rw [List.getElem_append_left (by simpa using hlt), List.getElem_range',
      Nat.mod_eq_of_lt (by omega)]
    omega
  · rw [List.getElem_append_right (by simpa using hge), List.getElem_range', List.length_range',
      show o + i = o + i - span base + span base by omega, Nat.add_mod_right,
      Nat.mod_eq_of_lt (by omega)]
    omega

end Cycle

section Search
variable {α : Type} {t : HandleTable α} {kind : HandleKind} {base v w : UInt32}
  {log : List (Moment α)} {k j : Nat}

theorem length_passed_le (t : HandleTable α) (n : Nat) (v : UInt32) :
    (t.passed n v).length ≤ n := by
  induction n generalizing v with
  | zero => exact Nat.le_refl _
  | succ n ih =>
    unfold passed
    split
    · exact Nat.succ_le_succ (ih _)
    · exact Nat.zero_le _

/-- A bounded search that ends at a free value is the unbounded one. -/
theorem searches_firstFree {n : Nat} (hfree : t.isLive (t.firstFree n v) = false) :
    t.Searches v (t.passed n v).length (t.firstFree n v) := by
  induction n generalizing v with
  | zero => exact .found v hfree
  | succ n ih =>
    unfold firstFree at hfree ⊢
    unfold passed
    split
    · rename_i hlive
      rw [if_pos hlive] at hfree
      exact .pass hlive (follows_iff.mpr rfl) (ih hfree)
    · rename_i hlive
      exact .found v ((Bool.not_eq_true _).mp hlive)

theorem Searches.eq_iterate (h : t.Searches v k w) : w = (advance t.base)^[k] v := by
  induction h with
  | found => rfl
  | pass _ hnext _ ih => rw [ih, follows_iff.mp hnext, Function.iterate_succ_apply]

theorem Searches.isLive_end (h : t.Searches v k w) : t.isLive w = false := by
  induction h with
  | found _ hfree => exact hfree
  | pass _ _ _ ih => exact ih

theorem Searches.isLive_before (h : t.Searches v k w) (hj : j < k) :
    t.isLive ((advance t.base)^[j] v) = true := by
  induction h generalizing j with
  | found => exact absurd hj (Nat.not_lt_zero _)
  | pass hlive hnext _ ih =>
    cases j with
    | zero => exact hlive
    | succ j =>
      rw [Function.iterate_succ_apply, ← follows_iff.mp hnext]
      exact ih (Nat.lt_of_succ_lt_succ hj)

theorem Searches.unique {w' : UInt32} (h : t.Searches v k w) (h' : t.Searches v j w') :
    j = k ∧ w' = w := by
  obtain rfl : j = k := by
    -- where one of them ends, the other has found a live value if it goes on
    rcases Nat.lt_trichotomy j k with hlt | he | hlt
    · have := h.isLive_before hlt
      rw [← h'.eq_iterate, h'.isLive_end] at this
      cases this
    · exact he
    · have := h'.isLive_before hlt
      rw [← h.eq_iterate, h.isLive_end] at this
      cases this
  exact ⟨rfl, h'.eq_iterate.trans h.eq_iterate.symm⟩

/-- There is room as long as not every value of the range is live. -/
theorem hasRoom_iff (ht : t.Tidy) : t.HasRoom ↔ t.size < span t.base := by
  refine ⟨length_live_lt_span ht, fun hsize => ?_⟩
  by_contra hfull
  have hall : ∀ v, InRange t.base v → v ∈ t.live.map Prod.fst := by
    intro v hv
    have hlive : t.isLive v = true := by
      by_contra hfree
      exact hfull ⟨v, hv, (Bool.not_eq_true _).mp hfree⟩
    obtain ⟨a, ha⟩ := isLive_eq_true_iff.mp hlive
    exact List.mem_map.mpr ⟨(v, a), mem_live_iff.mpr ha, rfl⟩
  have := span_le_length (UInt32.le_trans ht.cursor.1 ht.cursor.2) hall
  rw [List.length_map] at this
  exact absurd hsize (Nat.not_lt.mpr this)

/-- The search ends just where there is room; in a full table it would go round for ever. -/
theorem searches_iff (ht : t.Tidy) :
    (∃ k w, t.Searches t.cursor k w) ↔ t.size < span t.base := by
  rw [← hasRoom_iff ht]
  constructor
  · rintro ⟨k, w, h⟩
    refine ⟨w, ?_, h.isLive_end⟩
    rw [h.eq_iterate]
    exact inRange_iterate ht.cursor k
  · intro hr
    exact ⟨_, _, searches_firstFree (isLive_nextRaw ht hr)⟩

/-- The next value is the first free one of the cycle. -/
theorem find?_cycle (ht : t.Tidy) (hr : t.HasRoom) :
    (cycle t.base t.cursor).find? (fun n => !t.isLive (.ofNat n)) = some t.nextRaw.toNat := by
  have hsearch : t.Searches t.cursor t.skipped.length t.nextRaw :=
    searches_firstFree (isLive_nextRaw ht hr)
  have hsteps : t.skipped.length < (cycle t.base t.cursor).length := by
    rw [length_cycle ht.cursor]
    exact Nat.lt_of_le_of_lt (length_passed_le ..) (length_live_lt_span ht hr)
  refine List.find?_eq_some_iff_getElem.mpr ⟨?_, t.skipped.length, hsteps, ?_, fun j hj => ?_⟩
  · simpa using hsearch.isLive_end
  · rw [getElem_cycle ht.cursor, ← nextRaw_eq]
  · rw [getElem_cycle ht.cursor]
    simpa using hsearch.isLive_before hj

/-- What an allocation finds and leaves: it goes over live values, at most all of them, to the first
free one. -/
structure Allocates (t : HandleTable α) (base : UInt32) (h : Handle) (cursor : UInt32) : Prop where
  ends : ∃ steps ≤ t.size, t.Searches t.cursor steps h.raw
  only : ∀ steps v, t.Searches t.cursor steps v → v = h.raw
  first : (cycle base t.cursor).find? (fun n => !t.isLive (.ofNat n)) = some h.raw.toNat
  next : Follows base h.raw cursor
  inRange : InRange base cursor

/-- In every table of a run the search ends if not all values are live, which is what a run asks of
the tables it allocates in, and then it finds the next free one. -/
theorem allocates_of_run (hb : base ≤ maxRaw) (run : Run kind base log t) (a : α) :
    ((∃ steps v, t.Searches t.cursor steps v) ↔ t.size < span base) ∧
      (t.size < span base → Allocates t base (t.allocate a).1 (t.allocate a).2.cursor) := by
  have ht := run.tidy hb
  obtain rfl := run.base_eq
  refine ⟨searches_iff ht, fun hsize => ?_⟩
  have hr : t.HasRoom := (hasRoom_iff ht).mpr hsize
  have hsearch : t.Searches t.cursor t.skipped.length t.nextRaw :=
    searches_firstFree (isLive_nextRaw ht hr)
  exact {
    ends := ⟨_, length_passed_le .., hsearch⟩
    only := fun _ _ h => (hsearch.unique h).2
    first := find?_cycle ht hr
    next := follows_iff.mpr rfl
    inRange := inRange_advance (inRange_nextRaw ht) }

/-- Of the last three values the one in the middle is free again: the search starts at the first one
and goes over it. -/
theorem allocates_between :
    ∃ (log : List (Moment Nat)) (t : HandleTable Nat), Run .conn (maxRaw - 2) log t ∧
      t.cursor = maxRaw - 2 ∧ t.isLive t.cursor = true ∧ t.size < span (maxRaw - 2) ∧
      (t.allocate 4).1 = ⟨maxRaw - 1⟩ ∧
      Allocates t (maxRaw - 2) (t.allocate 4).1 (t.allocate 4).2.cursor := by
  let r₁ := (empty .conn (maxRaw - 2)).serve (.allocate 1)
  let r₂ := r₁.2.serve (.allocate 2)
  let r₃ := r₂.2.serve (.allocate 3)
  have run : Run .conn (maxRaw - 2)
      [⟨empty .conn (maxRaw - 2), .allocate 1⟩, ⟨r₁.2, .allocate 2⟩, ⟨r₂.2, .allocate 3⟩,
        ⟨r₃.2, .close ⟨maxRaw - 1⟩⟩] (r₃.2.serve (.close ⟨maxRaw - 1⟩)).2 := by
    refine .step (.step (.step (.step .start ?_) ?_) ?_) (by simp)
    · exact fun _ _ => ⟨maxRaw, by decide, by decide⟩
    · exact fun _ _ => ⟨maxRaw, by decide, by decide⟩
    · exact fun _ _ => ⟨maxRaw, by decide, by decide⟩
  exact ⟨_, _, run, by decide, by decide, by decide, by decide,
    (allocates_of_run (by decide) run 4).2 (by decide)⟩

end Search
end Handoff.HandleTable
