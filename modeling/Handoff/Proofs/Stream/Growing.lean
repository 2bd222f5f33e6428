import Handoff.Proofs.Stream.Deeds

namespace Handoff.Streams
variable {s s' s'' : Streams} {d : Descriptor}

structure Grows (s s' : Streams) : Prop where
  count : s.count ≤ s'.count
  address : ∀ d, d.stream < s.count → (s'.own d).address = (s.own d).address

theorem Grows.refl (s : Streams) : Grows s s :=
  ⟨Nat.le_refl _, fun _ _ => rfl⟩

theorem Grows.trans (h : Grows s s') (h' : Grows s' s'') : Grows s s'' where
  count := Nat.le_trans h.count h'.count
  address := fun d hd =>
    (h'.address d (Nat.lt_of_lt_of_le hd h.count)).trans (h.address d hd)

/-- One end changes, and not its address. -/
theorem grows_one {x : StreamEnd} (hcount : s'.count = s.count)
    (hown : ∀ e, s'.own e = if e = d then x else s.own e)
    (hx : x.address = (s.own d).address) : Grows s s' := by
  refine ⟨Nat.le_of_eq hcount.symm, fun e _ => ?_⟩
  rw [hown]
  split
  · rw [‹e = d›, hx]
  · rfl

theorem grows_setEnd (s : Streams) (d : Descriptor) {x : StreamEnd}
    (hx : x.address = (s.own d).address) : Grows s (s.setEnd d.stream d.side x) :=
  grows_one rfl (fun e => own_setEnd s d e x) hx

theorem Turned.grows {x : StreamEnd} (h : Turned s s' d x)
    (hx : x.address = (s.own d).address) : Grows s s' :=
  grows_one h.count h.own hx

theorem grows_close (s : Streams) (d : Descriptor) : Grows s (s.close d) :=
  grows_setEnd s d rfl

theorem grows_copy (s : Streams) (d : Descriptor) : Grows s (s.copy d) :=
  grows_setEnd s d rfl

theorem grows_closeAll (s : Streams) (ds : List Descriptor) : Grows s (s.closeAll ds) := by
  induction ds generalizing s with
  | nil => exact .refl s
  | cons d ds ih => exact (grows_close s d).trans (ih (s.close d))

theorem grows_connect (s : Streams) (near far : Endpoint) : Grows s (s.connect near far).2 where
  count := Nat.le_succ _
  address := fun d hd => by
    have hne : d.stream ≠ s.count := Nat.ne_of_lt hd
    simp only [own, connect, assign_of_ne _ _ _ hne]

/-- Using a connection moves bytes and ends it, nothing else. -/
theorem Used.grows {new : List Deed} (h : Used s d new s') : Grows s s' := by
  cases h with
  | idle => exact .refl s
  | nothing => exact .refl s
  | wrote _ _ _ ht => exact ht.grows rfl
  | read _ _ ht => exact ht.grows rfl
  | ended _ _ ht => exact ht.grows rfl
  | shut _ ht => exact ht.grows rfl

/-- Connections were made, and what has ended has not come back. -/
structure Ebbs (s s' : Streams) : Prop where
  count : s.count ≤ s'.count
  ended : ∀ d, d.stream < s.count → (s.own d).ended = true → (s'.own d).ended = true

theorem Ebbs.refl (s : Streams) : Ebbs s s :=
  ⟨Nat.le_refl _, fun _ _ => id⟩

theorem Ebbs.trans (h : Ebbs s s') (h' : Ebbs s' s'') : Ebbs s s'' where
  count := Nat.le_trans h.count h'.count
  ended := fun d hd he => h'.ended d (Nat.lt_of_lt_of_le hd h.count) (h.ended d hd he)

theorem ebbs_one {x : StreamEnd} (hcount : s'.count = s.count)
    (hown : ∀ e, s'.own e = if e = d then x else s.own e)
    (hx : (s.own d).ended = true → x.ended = true) : Ebbs s s' := by
  refine ⟨Nat.le_of_eq hcount.symm, fun e _ he => ?_⟩
  rw [hown]
  split
  · subst e
    exact hx he
  · exact he

theorem ebbs_close (s : Streams) (d : Descriptor) : Ebbs s (s.close d) :=
  ebbs_one rfl (own_close s d) fun he => by simp [he]

theorem ebbs_copy (s : Streams) (d : Descriptor) : Ebbs s (s.copy d) :=
  ebbs_one rfl (fun e => own_setEnd s d e _) id

theorem ebbs_closeAll (s : Streams) (ds : List Descriptor) : Ebbs s (s.closeAll ds) := by
  induction ds generalizing s with
  | nil => exact .refl s
  | cons d ds ih => exact (ebbs_close s d).trans (ih (s.close d))

theorem ebbs_connect (s : Streams) (near far : Endpoint) : Ebbs s (s.connect near far).2 where
  count := Nat.le_succ _
  ended := fun d hd he => by
    rw [own_connect, if_neg (Nat.ne_of_lt hd)]
    exact he

theorem Used.ebbs {new : List Deed} (h : Used s d new s') : Ebbs s s' := by
  cases h with
  | idle => exact .refl s
  | nothing => exact .refl s
  | wrote _ _ _ ht => exact ebbs_one ht.count ht.own id
  | read _ _ ht => exact ebbs_one ht.count ht.own id
  | ended _ _ ht => exact ebbs_one ht.count ht.own id
  | shut _ ht => exact ebbs_one ht.count ht.own fun _ => rfl

theorem holders_close_le (s : Streams) (e d : Descriptor) :
    ((s.close e).own d).holders ≤ (s.own d).holders := by
  rw [own_close]
  split
  · subst d
    exact Nat.sub_le _ _
  · exact Nat.le_refl _

theorem holders_closeAll_le (s : Streams) (ds : List Descriptor) (d : Descriptor) :
    ((s.closeAll ds).own d).holders ≤ (s.own d).holders := by
  induction ds generalizing s with
  | nil => exact Nat.le_refl _
  | cons e ds ih => exact Nat.le_trans (ih (s.close e)) (holders_close_le s e d)

theorem Used.holders {new : List Deed} (h : Used s d new s') (e : Descriptor) :
    (s'.own e).holders = (s.own e).holders := by
  have hone : ∀ {f x}, Turned s s' f x → (s'.own e).holders = (s.own e).holders := by
    intro f x ht
    rw [ht.own]
    split
    · rw [ht.holders, ‹e = f›]
    · rfl
  cases h with
  | idle => rfl
  | nothing => rfl
  | wrote _ _ _ ht => exact hone ht
  | read _ _ ht => exact hone ht
  | ended _ _ ht => exact hone ht
  | shut _ ht => exact hone ht

/-- No end is ended by using another. -/
theorem Used.ended_ne {new : List Deed} (h : Used s d new s') {e : Descriptor} (hne : e ≠ d) :
    (s'.own e).ended = (s.own e).ended := by
  cases h with
  | idle => rfl
  | nothing => rfl
  | wrote _ _ _ ht => rw [ht.own, if_neg hne]
  | read _ _ ht | ended _ _ ht =>
    rw [ht.own]
    split
    · rw [‹e = d.other›]
    · rfl
  | shut _ ht => rw [ht.own, if_neg hne]

/-- Closing the last copy of a descriptor ends its end of the connection. -/
theorem ended_closeAll {ds : List Descriptor} (hd : d ∈ ds) (hmade : d.stream < s.count)
    (hlast : (s.own d).holders ≤ 1) : ((s.closeAll ds).own d).ended = true := by
  induction ds generalizing s with
  | nil => cases hd
  | cons e ds ih =>
    by_cases he : d = e
    · subst e
      apply (ebbs_closeAll (s.close d) ds).ended d hmade
      rw [own_close, if_pos rfl]
      simp [hlast]
    · refine ih (s := s.close e) ((List.mem_cons.mp hd).resolve_left he) hmade ?_
      exact Nat.le_trans (holders_close_le s e d) hlast

end Handoff.Streams
