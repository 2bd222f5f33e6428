namespace Handoff

/-- `f` with its value at `k` replaced by `a`. -/
def assign {κ α : Type} [DecidableEq κ] (f : κ → α) (k : κ) (a : α) : κ → α :=
  fun x => if x = k then a else f x

section Assign
variable {κ α : Type} [DecidableEq κ] (f : κ → α) (k : κ) (a : α)

@[simp] theorem assign_same : assign f k a k = a := by simp [assign]

theorem assign_of_ne {x : κ} (h : x ≠ k) : assign f k a x = f x := by simp [assign, h]

theorem assign_apply (x : κ) : assign f k a x = if x = k then a else f x := rfl

theorem assign_self : assign f k (f k) = f := by
  funext x
  rw [assign_apply]
  split
  · rw [‹x = k›]
  · rfl

theorem assign_assign (b : α) : assign (assign f k a) k b = assign f k b := by
  funext x
  rw [assign_apply, assign_apply, assign_apply]
  split <;> rfl

end Assign
end Handoff
