import Handoff.Format

/-!
What the entries of a record come to. Entries for fields that differ are all taken in, and a field
has its entry afterwards or is still empty.
-/

namespace Handoff.Schema
variable {ι : Type} [DecidableEq ι] {s : Schema ι}

theorem Draft.put_self (d : s.Draft) (i : ι) (v : (s.kind i).Value) : d.put i v i = some v :=
  dif_pos rfl

theorem Draft.put_other (d : s.Draft) {i j : ι} (v : (s.kind i).Value) (h : i ≠ j) :
    d.put i v j = d j :=
  dif_neg h

/-- A record's fields, those of a list of them, as entries. -/
theorem Draft.fill_map (d : s.Draft) {v : (i : ι) → (s.kind i).Value} {is : List ι}
    (hdistinct : is.Nodup) (hnew : ∀ i ∈ is, d i = none) :
    d.fill (is.map fun i => ⟨i, v i⟩) = some fun i => if i ∈ is then some (v i) else d i := by
  induction is generalizing d with
  | nil => simp only [List.map_nil, fill, List.not_mem_nil, if_false]
  | cons i is ih =>
    obtain ⟨hi, his⟩ := List.nodup_cons.mp hdistinct
    have hnone : d i = none := hnew i List.mem_cons_self
    have hrest : ∀ j ∈ is, d.put i (v i) j = none := by
      intro j hj
      have hij : i ≠ j := fun h => hi (h ▸ hj)
      rw [d.put_other _ hij]
      exact hnew j (List.mem_cons_of_mem _ hj)
    rw [List.map_cons, fill, hnone, Option.isSome_none, if_neg Bool.false_ne_true, ih _ his hrest]
    congr 1
    funext j
    by_cases hij : i = j
    · subst hij
      simp only [hi, if_false, put_self, List.mem_cons_self, if_true]
    · have hji : j ≠ i := fun h => hij h.symm
      simp only [d.put_other _ hij, List.mem_cons, hji, false_or]

end Handoff.Schema
