import Mathlib.Data.List.Nodup
import Mathlib.Data.Nat.ModEq
import Mathlib.Logic.Function.Iterate
import Handoff.Proofs.Handle.Table

namespace Handoff.HandleTable

def InRange (base v : UInt32) : Prop :=
  base ≤ v ∧ v ≤ maxRaw

instance (base v : UInt32) : Decidable (InRange base v) :=
  inferInstanceAs (Decidable (_ ∧ _))

/-- How many values there are from `base` to the largest one. -/
def span (base : UInt32) : Nat :=
  maxRaw.toNat - base.toNat + 1

section Cycle
variable {base v w : UInt32}

theorem InRange.exists_offset (h : InRange base v) : ∃ i < span base, v.toNat = base.toNat + i := by
  have h₁ := UInt32.le_iff_toNat_le.mp h.1
  have h₂ := UInt32.le_iff_toNat_le.mp h.2
  exact ⟨v.toNat - base.toNat, by unfold span; omega, by omega⟩

/-- The values of the range form one cycle under `advance`. -/
theorem advance_toNat (h : InRange base v) {i : Nat} (hi : v.toNat = base.toNat + i) :
    (advance base v).toNat = base.toNat + (i + 1) % span base := by
  have h₁ := UInt32.le_iff_toNat_le.mp h.1
  have h₂ := UInt32.le_iff_toNat_le.mp h.2
  unfold advance
  split
  · rename_i hm
    have he := UInt32.le_iff_toNat_le.mp hm
    have hs : i + 1 = span base := by unfold span; omega
    rw [hs, Nat.mod_self, Nat.add_zero]
  · rename_i hm
    have hlt : v.toNat < maxRaw.toNat := UInt32.lt_iff_toNat_lt.mp (UInt32.not_le.mp hm)
    have hmax : maxRaw.toNat = 2147483647 := rfl
    have hadd : (v + 1).toNat = v.toNat + 1 := by
      rw [UInt32.toNat_add]
      exact Nat.mod_eq_of_lt (by simp; omega)
    rw [hadd, Nat.mod_eq_of_lt (by unfold span; omega)]
    omega

theorem inRange_of_offset (hb : base ≤ maxRaw) {i : Nat}
    (hi : v.toNat = base.toNat + i % span base) : InRange base v := by
  have hle := UInt32.le_iff_toNat_le.mp hb
  have hlt : i % span base < span base := Nat.mod_lt _ (by unfold span; omega)
  refine ⟨UInt32.le_iff_toNat_le.mpr (by omega), UInt32.le_iff_toNat_le.mpr ?_⟩
  unfold span at hlt hi
  omega

theorem inRange_advance (h : InRange base v) : InRange base (advance base v) := by
  obtain ⟨i, -, hi⟩ := h.exists_offset
  exact inRange_of_offset (UInt32.le_trans h.1 h.2) (advance_toNat h hi)

theorem inRange_iterate (h : InRange base v) (k : Nat) : InRange base ((advance base)^[k] v) := by
  induction k with
  | zero => exact h
  | succ k ih =>
    rw [Function.iterate_succ_apply']
    exact inRange_advance ih

theorem iterate_toNat (h : InRange base v) {i : Nat} (hi : i < span base)
    (hv : v.toNat = base.toNat + i) (k : Nat) :
    ((advance base)^[k] v).toNat = base.toNat + (i + k) % span base := by
  induction k with
  | zero => rw [Nat.add_zero, Nat.mod_eq_of_lt hi]; exact hv
  | succ k ih =>
    rw [Function.iterate_succ_apply', advance_toNat (inRange_iterate h k) ih, Nat.mod_add_mod]
    rfl

/-- From any value of the range every other one is reached in less than a round. -/
theorem exists_iterate (hv : InRange base v) (hw : InRange base w) :
    ∃ k < span base, (advance base)^[k] v = w := by
  obtain ⟨i, hi, hvi⟩ := hv.exists_offset
  obtain ⟨j, hj, hwj⟩ := hw.exists_offset
  refine ⟨(j + span base - i) % span base, Nat.mod_lt _ (by omega), ?_⟩
  apply UInt32.toNat_inj.mp
  rw [iterate_toNat hv hi hvi, hwj, Nat.add_mod_mod]
  have : i + (j + span base - i) = j + span base := by omega
  rw [this, Nat.add_mod_right, Nat.mod_eq_of_lt hj]

/-- Within one round no value comes twice. -/
theorem iterate_inj (hv : InRange base v) {i j : Nat} (hi : i < span base) (hj : j < span base)
    (he : (advance base)^[i] v = (advance base)^[j] v) : i = j := by
  obtain ⟨o, ho, hvo⟩ := hv.exists_offset
  have h := congrArg UInt32.toNat he
  rw [iterate_toNat hv ho hvo, iterate_toNat hv ho hvo] at h
  have hm : (o + i) ≡ (o + j) [MOD span base] := Nat.add_left_cancel h
  exact Nat.ModEq.eq_of_lt_of_lt (Nat.ModEq.add_left_cancel' o hm) hi hj

/-- Coming back to where one started takes a whole round. -/
theorem span_le_of_iterate_eq (hv : InRange base v) {k : Nat} (hk : 0 < k)
    (he : (advance base)^[k] v = v) : span base ≤ k := by
  by_contra hlt
  have := iterate_inj hv (Nat.not_le.mp hlt) (by unfold span; omega) (j := 0) he
  omega

/-- Where every value of the range is, there are at least as many as in the range. -/
theorem span_le_length (hb : base ≤ maxRaw) {vs : List UInt32}
    (hall : ∀ v, InRange base v → v ∈ vs) : span base ≤ vs.length := by
  have hsub : List.range' base.toNat (span base) ⊆ vs.map UInt32.toNat := by
    intro n hn
    rw [List.mem_range'_1] at hn
    have hle := UInt32.le_iff_toNat_le.mp hb
    have hmax : maxRaw.toNat = 2147483647 := rfl
    have hnat : (UInt32.ofNat n).toNat = n := by
      rw [UInt32.toNat_ofNat']
      exact Nat.mod_eq_of_lt (by unfold span at hn; omega)
    refine List.mem_map.mpr
      ⟨.ofNat n, hall _ (inRange_of_offset hb (i := n - base.toNat) ?_), hnat⟩
    rw [Nat.mod_eq_of_lt (by omega), hnat]
    omega
  have hnodup : (List.range' base.toNat (span base)).Nodup := List.nodup_range'
  have := hnodup.length_le_of_subset hsub
  simpa using this

end Cycle

section Search
variable {α : Type} {t : HandleTable α}

def passed (t : HandleTable α) : (steps : Nat) → (raw : UInt32) → List UInt32
  | 0, _ => []
  | steps + 1, raw =>
    if t.isLive raw then raw :: t.passed steps (advance t.base raw) else []

def skipped (t : HandleTable α) : List UInt32 :=
  t.passed t.live.length t.cursor

structure Tidy (t : HandleTable α) : Prop where
  cursor : InRange t.base t.cursor
  live : ∀ h a, t.find? h = some a → InRange t.base h.raw

def HasRoom (t : HandleTable α) : Prop :=
  ∃ v, InRange t.base v ∧ t.isLive v = false

theorem isLive_passed {n : Nat} {raw v : UInt32} (h : v ∈ t.passed n raw) : t.isLive v = true := by
  induction n generalizing raw with
  | zero => simp [passed] at h
  | succ n ih =>
    unfold passed at h
    split at h
    · rename_i hl
      rcases List.mem_cons.mp h with rfl | hm
      · exact hl
      · exact ih hm
    · simp at h

theorem passed_eq (t : HandleTable α) (n : Nat) (raw : UInt32) :
    t.passed n raw =
      (List.range (t.passed n raw).length).map fun i => (advance t.base)^[i] raw := by
  induction n generalizing raw with
  | zero => rfl
  | succ n ih =>
    unfold passed
    split
    · rw [List.length_cons, List.range_succ_eq_map, List.map_cons, List.map_map, ih]
      rw [List.length_map, List.length_range]
      rfl
    · rfl

theorem firstFree_eq (t : HandleTable α) (n : Nat) (raw : UInt32) :
    t.firstFree n raw = (advance t.base)^[(t.passed n raw).length] raw := by
  induction n generalizing raw with
  | zero => rfl
  | succ n ih =>
    unfold firstFree passed
    split
    · rw [ih]; rfl
    · rfl

/-- A search either ends at a free value or has used up its steps. -/
theorem firstFree_free_or (t : HandleTable α) (n : Nat) (raw : UInt32) :
    t.isLive (t.firstFree n raw) = false ∨ (t.passed n raw).length = n := by
  induction n generalizing raw with
  | zero => exact .inr rfl
  | succ n ih =>
    unfold firstFree passed
    split
    · simpa using ih (advance t.base raw)
    · rename_i hl
      exact .inl (by simpa using hl)

theorem length_live_lt_span (ht : t.Tidy) (hr : t.HasRoom) : t.live.length < span t.base := by
  obtain ⟨v, hv, hfree⟩ := hr
  have hnodup : (v :: t.live.map Prod.fst).Nodup := by
    refine List.nodup_cons.mpr ⟨?_, t.ascending.imp fun h => UInt32.ne_of_lt h⟩
    intro hm
    obtain ⟨⟨k, a⟩, hka, rfl⟩ := List.mem_map.mp hm
    rw [isLive_eq_false_iff, mem_live_iff.mp hka] at hfree
    contradiction
  have hinj : ((v :: t.live.map Prod.fst).map UInt32.toNat).Nodup :=
    hnodup.map fun _ _ => UInt32.toNat_inj.mp
  have hsub : (v :: t.live.map Prod.fst).map UInt32.toNat ⊆
      List.range' t.base.toNat (span t.base) := by
    intro n hn
    obtain ⟨w, hw, rfl⟩ := List.mem_map.mp hn
    have hin : InRange t.base w := by
      rcases List.mem_cons.mp hw with rfl | hm
      · exact hv
      · obtain ⟨⟨k, a⟩, hka, rfl⟩ := List.mem_map.mp hm
        exact ht.live ⟨k⟩ a (mem_live_iff.mp hka)
    obtain ⟨i, hi, hwi⟩ := hin.exists_offset
    rw [hwi]
    simpa [List.mem_range'_1] using hi
  have := hinj.length_le_of_subset hsub
  simp at this
  omega

/-- While a value is free, the search ends at one: passing every live value takes no more steps
than there are. -/
theorem isLive_nextRaw (ht : t.Tidy) (hr : t.HasRoom) : t.isLive t.nextRaw = false := by
  rcases firstFree_free_or t t.live.length t.cursor with h | hlen
  · exact h
  · by_contra hlive
    rw [Bool.not_eq_false] at hlive
    have hspan := length_live_lt_span ht hr
    let values := (List.range (t.live.length + 1)).map fun i => (advance t.base)^[i] t.cursor
    have hnodup : values.Nodup := by
      refine List.Nodup.map_on ?_ List.nodup_range
      intro i hi j hj he
      rw [List.mem_range] at hi hj
      exact iterate_inj ht.cursor (by omega) (by omega) he
    have hsub : values ⊆ t.live.map Prod.fst := by
      intro v hv
      have hlv : t.isLive v = true := by
        obtain ⟨i, hi, rfl⟩ := List.mem_map.mp hv
        rw [List.mem_range] at hi
        rcases Nat.lt_succ_iff_lt_or_eq.mp hi with hi | rfl
        · have hm : (advance t.base)^[i] t.cursor ∈ t.passed t.live.length t.cursor := by
            rw [passed_eq, hlen]
            exact List.mem_map.mpr ⟨i, List.mem_range.mpr hi, rfl⟩
          exact isLive_passed hm
        · rwa [nextRaw, firstFree_eq, hlen] at hlive
      obtain ⟨a, ha⟩ := isLive_eq_true_iff.mp hlv
      exact List.mem_map.mpr ⟨(v, a), mem_live_iff.mpr ha, rfl⟩
    have hle := hnodup.length_le_of_subset hsub
    rw [List.length_map, List.length_map, List.length_range] at hle
    omega

theorem nextRaw_eq (t : HandleTable α) :
    t.nextRaw = (advance t.base)^[t.skipped.length] t.cursor :=
  firstFree_eq ..

theorem inRange_nextRaw (ht : t.Tidy) : InRange t.base t.nextRaw := by
  rw [nextRaw_eq]
  exact inRange_iterate ht.cursor _

/-- The next value to be issued stands for nothing. -/
theorem find?_nextRaw (ht : t.Tidy) (hr : t.HasRoom) : t.find? ⟨t.nextRaw⟩ = none :=
  isLive_eq_false_iff.mp (isLive_nextRaw ht hr)

theorem tidy_empty {base : UInt32} (kind : HandleKind) (hb : base ≤ maxRaw) :
    (empty kind base : HandleTable α).Tidy :=
  ⟨⟨UInt32.le_refl _, hb⟩, fun _ _ h => by simp at h⟩

theorem Tidy.allocate (ht : t.Tidy) (a : α) : (t.allocate a).2.Tidy where
  cursor := inRange_advance (inRange_nextRaw ht)
  live := fun h b hb => by
    rw [find?_allocate] at hb
    split at hb
    · rename_i he
      rw [he]
      exact inRange_nextRaw ht
    · exact ht.live h b hb

theorem Tidy.erase (ht : t.Tidy) (h : Handle) : (t.erase h).Tidy where
  cursor := ht.cursor
  live := fun k b hb => by
    rw [find?_erase] at hb
    split at hb
    · cases hb
    · exact ht.live k b hb

theorem Tidy.modify (ht : t.Tidy) (h : Handle) (f : α → α) : (t.modify h f).Tidy where
  cursor := ht.cursor
  live := fun k b hb => by
    rw [find?_modify] at hb
    split at hb
    · obtain ⟨a, ha, -⟩ := Option.map_eq_some_iff.mp hb
      exact ht.live k a ha
    · exact ht.live k b hb

end Search
end Handoff.HandleTable
