import Mathlib.Algebra.Order.BigOperators.Group.Finset
import Handoff.Bridge.Basic

namespace Handoff

inductive Spot where
  /-- With those that a bridge or a node gave them to. -/
  | hand
  | conns (bridge : Nat)
  | feed (bridge : Nat) (k : FeedId)
  | queue (l : ListenerId)
  deriving DecidableEq

theorem Spot.exists_ne (p : Spot) : ∃ q : Spot, q ≠ p := by
  cases p with
  | hand => exact ⟨.conns 0, nofun⟩
  | conns _ => exact ⟨.hand, nofun⟩
  | feed _ _ => exact ⟨.hand, nofun⟩
  | queue _ => exact ⟨.hand, nofun⟩

/-- At however many spots one counts, there are not more than `n`. -/
def Covers (n : Nat) (f : Spot → Nat) : Prop :=
  ∀ S : Finset Spot, ∑ p ∈ S, f p ≤ n

namespace Covers
variable {n n' : Nat} {f f' : Spot → Nat} {p q : Spot}

theorem at_spot (h : Covers n f) (p : Spot) : f p ≤ n := by
  have hp := h {p}
  rwa [Finset.sum_singleton] at hp

theorem at_two (h : Covers n f) (hpq : p ≠ q) : f p + f q ≤ n := by
  have hp := h {p, q}
  rwa [Finset.sum_pair hpq] at hp

/-- What is more or less at two spots is more or less in all. -/
theorem change (h : Covers n f) (hpq : p ≠ q) (hout : ∀ r, r ≠ p → r ≠ q → f' r ≤ f r)
    (hin : f' p + f' q + n ≤ f p + f q + n') : Covers n' f' := by
  intro S
  have split : ∀ g : Spot → Nat, ∑ r ∈ S ∪ {p, q}, g r = ∑ r ∈ S \ {p, q}, g r + (g p + g q) := by
    intro g
    rw [← Finset.sdiff_union_self_eq_union, Finset.sum_union Finset.sdiff_disjoint,
      Finset.sum_pair hpq]
  have hsub : ∑ r ∈ S, f' r ≤ ∑ r ∈ S ∪ {p, q}, f' r :=
    Finset.sum_le_sum_of_subset Finset.subset_union_left
  have hrest : ∑ r ∈ S \ {p, q}, f' r ≤ ∑ r ∈ S \ {p, q}, f r := by
    apply Finset.sum_le_sum
    intro r hr
    simp only [Finset.mem_sdiff, Finset.mem_insert, Finset.mem_singleton, not_or] at hr
    exact hout r hr.2.1 hr.2.2
  have hall := h (S ∪ {p, q})
  rw [split] at hsub hall
  omega

end Covers

namespace Streams
variable {s : Streams} {d e : Descriptor}

theorem own_setEnd (s : Streams) (e d : Descriptor) (x : StreamEnd) :
    (s.setEnd e.stream e.side x).own d = if d = e then x else s.own d := by
  obtain ⟨id, side⟩ := e
  obtain ⟨id', side'⟩ := d
  simp only [own, setEnd, Descriptor.mk.injEq]
  rw [assign_apply]
  split
  · subst id'
    rw [assign_apply]
    simp
  · simp [*]

theorem own_close (s : Streams) (e d : Descriptor) : (s.close e).own d =
    if d = e then { s.own e with
      holders := (s.own e).holders - 1
      ended := (s.own e).ended || (s.own e).holders ≤ 1 } else s.own d :=
  own_setEnd ..

theorem own_connect (s : Streams) (near far : Endpoint) (d : Descriptor) :
    (s.connect near far).2.own d = if d.stream = s.count
      then { address := if d.side = .near then near else far, holders := 1 } else s.own d := by
  obtain ⟨id, side⟩ := d
  simp only [own, connect]
  rw [assign_apply]
  split
  · cases side <;> rfl
  · rfl

end Streams

structure Held (s : Streams) (kept : Spot → List Descriptor) : Prop where
  covered : ∀ d, Covers (s.own d).holders fun p => (kept p).count d
  unmade : ∀ d, s.count ≤ d.stream → (s.own d).holders = 0 ∧ (s.own d).sent = []

namespace Held
variable {s : Streams} {kept : Spot → List Descriptor} {d : Descriptor} {p : Spot}

theorem holders_pos (h : Held s kept) (hd : d ∈ kept p) : 0 < (s.own d).holders :=
  Nat.lt_of_lt_of_le (List.count_pos_iff.mpr hd) ((h.covered d).at_spot p)

theorem made (h : Held s kept) (hd : d ∈ kept p) : d.stream < s.count := by
  by_contra hn
  have hpos := h.holders_pos hd
  rw [(h.unmade d (Nat.le_of_not_lt hn)).1] at hpos
  exact absurd hpos (Nat.lt_irrefl 0)

end Held

/-- Since `base` nothing was sent and no end has ended but by closing its last copy. -/
structure Accounted (base s : Streams) (kept : Spot → List Descriptor) : Prop
    extends Held s kept where
  count : base.count ≤ s.count
  sent : ∀ d, (s.own d).sent = (base.own d).sent
  gone : ∀ d, d.stream < base.count → (s.own d).gone = (base.own d).gone
  ended : ∀ d, (s.own d).ended = true →
    d.stream < base.count ∧ (base.own d).ended = true ∨ (s.own d).holders = 0
  stays : ∀ d, d.stream < base.count → (base.own d).ended = true → (s.own d).ended = true
  closed : ∀ d, d.stream < base.count → (base.own d).holders = 0 → (s.own d).holders = 0

theorem Held.accounted {s : Streams} {kept : Spot → List Descriptor} (h : Held s kept) :
    Accounted s s kept :=
  { h with
    count := Nat.le_refl _
    sent := fun _ => rfl
    gone := fun _ _ => rfl
    ended := fun d he => by
      by_cases hd : d.stream < s.count
      · exact .inl ⟨hd, he⟩
      · exact .inr (h.unmade d (Nat.le_of_not_lt hd)).1
    stays := fun _ _ he => he
    closed := fun _ _ hz => hz }

namespace Accounted
variable {base s : Streams} {kept kept' : Spot → List Descriptor} {d : Descriptor} {p q : Spot}
  {xs ys : List Descriptor}

/-- Copies move from one spot to another. -/
theorem shift (h : Accounted base s kept) (hpq : p ≠ q)
    (hin : ∀ e, xs.count e + ys.count e ≤ (kept p).count e + (kept q).count e) :
    Accounted base s (assign (assign kept p xs) q ys) :=
  { h with
    covered := fun e => by
      apply (h.covered e).change hpq
      · intro r hp hq
        rw [assign_of_ne _ _ _ hq, assign_of_ne _ _ _ hp]
      · rw [assign_of_ne _ _ _ hpq, assign_same, assign_same]
        exact Nat.add_le_add_right (hin e) _ }

/-- Copies are lost from sight. -/
theorem fewer (h : Accounted base s kept) (hle : ∀ r e, (kept' r).count e ≤ (kept r).count e) :
    Accounted base s kept' :=
  { h with
    covered := fun e S => by
      apply Nat.le_trans _ (h.covered e S)
      apply Finset.sum_le_sum
      intro r _
      exact hle r e }

theorem fewer_at (h : Accounted base s kept) (hle : ∀ e, xs.count e ≤ (kept p).count e) :
    Accounted base s (assign kept p xs) := by
  apply h.fewer
  intro r e
  rw [assign_apply]
  split
  · subst r
    exact hle e
  · exact Nat.le_refl _

/-- Copies of one descriptor are opened or closed at one spot. -/
theorem update (h : Accounted base s kept) {x : StreamEnd} (hd : d ∈ kept q)
    (hothers : ∀ e, e ≠ d → xs.count e ≤ (kept p).count e)
    (hhere : xs.count d + (s.own d).holders ≤ (kept p).count d + x.holders)
    (hsent : x.sent = (s.own d).sent) (hgone : x.gone = (s.own d).gone)
    (hended : x.ended = true → (s.own d).ended = true ∨ x.holders = 0)
    (hstays : (s.own d).ended = true → x.ended = true) :
    Accounted base (s.setEnd d.stream d.side x) (assign kept p xs) := by
  have hpos := h.holders_pos hd
  have hmade := h.made hd
  obtain ⟨r, hr⟩ := p.exists_ne
  refine ⟨⟨?_, ?_⟩, ?_, ?_, ?_, ?_, ?_, ?_⟩
  · intro e
    apply (h.covered e).change hr.symm
    · intro r hp _
      rw [assign_of_ne _ _ _ hp]
    · rw [assign_same, assign_of_ne _ _ _ hr, Streams.own_setEnd]
      split
      · subst e
        omega
      · rename_i hne
        have he := hothers e hne
        omega
  · intro e he
    have hne : e ≠ d := by
      rintro rfl
      exact absurd hmade (Nat.not_lt_of_le he)
    rw [Streams.own_setEnd, if_neg hne]
    exact h.unmade e he
  · exact h.count
  · intro e
    rw [Streams.own_setEnd]
    split
    · subst e
      rw [hsent, h.sent]
    · exact h.sent e
  · intro e he
    rw [Streams.own_setEnd]
    split
    · subst e
      rw [hgone, h.gone d he]
    · exact h.gone e he
  · intro e he
    rw [Streams.own_setEnd] at he ⊢
    split at he
    · subst e
      rw [if_pos rfl]
      rcases hended he with hx | hz
      · rcases h.ended d hx with hb | hz
        · exact .inl hb
        · exact absurd hz (Nat.ne_of_gt hpos)
      · exact .inr hz
    · rename_i hne
      rw [if_neg hne]
      exact h.ended e he
  · intro e hc he
    rw [Streams.own_setEnd]
    split
    · subst e
      exact hstays (h.stays d hc he)
    · exact h.stays e hc he
  · intro e hc hz
    have hs := h.closed e hc hz
    rw [Streams.own_setEnd, if_neg]
    · exact hs
    · -- copies are opened and closed of what still has one only
      rintro rfl
      exact absurd hs (Nat.ne_of_gt hpos)

/-- A copy at one spot is closed. -/
theorem close (h : Accounted base s kept)
    (hin : ∀ e, xs.count e + [d].count e ≤ (kept p).count e) :
    Accounted base (s.close d) (assign kept p xs) := by
  have hd := hin d
  rw [List.count_singleton_self] at hd
  have hmem : d ∈ kept p := List.count_pos_iff.mp (by omega)
  have hpos := h.holders_pos hmem
  apply h.update hmem
  · intro e _
    have he := hin e
    omega
  · simp only
    omega
  · rfl
  · rfl
  · intro he
    simp only [Bool.or_eq_true, decide_eq_true_eq] at he
    rcases he with he | hle
    · exact .inl he
    · right
      simp only
      omega
  · intro he
    simp [he]

/-- Copies at one spot are closed. -/
theorem closeAll (ds : List Descriptor) (h : Accounted base s kept)
    (hin : ∀ e, xs.count e + ds.count e ≤ (kept p).count e) :
    Accounted base (s.closeAll ds) (assign kept p xs) := by
  induction ds generalizing s kept with
  | nil => exact h.fewer_at hin
  | cons d ds ih =>
    have hc : Accounted base (s.close d) (assign kept p (ds ++ xs)) := by
      apply h.close
      intro e
      have he := hin e
      rw [List.count_cons] at he
      rw [List.count_append, List.count_cons, List.count_nil]
      omega
    have hrest := ih hc
    rw [assign_assign] at hrest
    apply hrest
    intro e
    rw [assign_same, List.count_append, Nat.add_comm]

/-- A copy is made of one that is there. -/
theorem copy (h : Accounted base s kept) (hd : d ∈ kept q)
    (hin : ∀ e, xs.count e ≤ (kept p).count e + [d].count e) :
    Accounted base (s.copy d) (assign kept p xs) := by
  apply h.update hd
  · intro e hne
    have he := hin e
    rwa [List.count_singleton, if_neg (by simpa using Ne.symm hne)] at he
  · have hd := hin d
    rw [List.count_singleton_self] at hd
    simp only
    omega
  · rfl
  · rfl
  · exact .inl
  · exact id

/-- A connection is made: its far end is left at a spot, its near end is handed out. -/
theorem connect (h : Accounted base s kept) (near far : Endpoint) (hp : p ≠ .hand) :
    Accounted base (s.connect near far).2
      (assign (assign kept p (kept p ++ [⟨s.count, .far⟩])) .hand
        (⟨s.count, .near⟩ :: kept .hand)) := by
  have hcount : (s.connect near far).2.count = s.count + 1 := rfl
  refine ⟨⟨?_, ?_⟩, ?_, ?_, ?_, ?_, ?_, ?_⟩
  · intro e
    apply (h.covered e).change hp
    · intro r hr hh
      rw [assign_of_ne _ _ _ hh, assign_of_ne _ _ _ hr]
    · rw [assign_of_ne _ _ _ hp, assign_same, assign_same, Streams.own_connect]
      simp only [List.count_cons, List.count_append, List.count_nil]
      obtain ⟨id, side⟩ := e
      by_cases hid : id = s.count
      · subst id
        have hz := (h.unmade ⟨s.count, side⟩ (Nat.le_refl _)).1
        cases side <;> simp [hz]
        all_goals omega
      · have hne : ¬ s.count = id := Ne.symm hid
        simp [hid, hne]
  · intro e he
    rw [hcount] at he
    rw [Streams.own_connect, if_neg (Nat.ne_of_gt he)]
    exact h.unmade e (Nat.le_of_succ_le he)
  · exact Nat.le_succ_of_le h.count
  · intro e
    rw [Streams.own_connect]
    split
    · rename_i he
      rw [← h.sent, (h.unmade e (Nat.le_of_eq he.symm)).2]
    · exact h.sent e
  · intro e he
    rw [Streams.own_connect, if_neg (Nat.ne_of_lt (Nat.lt_of_lt_of_le he h.count))]
    exact h.gone e he
  · intro e
    rw [Streams.own_connect]
    split
    · intro he
      cases he
    · exact h.ended e
  · intro e hc he
    rw [Streams.own_connect, if_neg (Nat.ne_of_lt (Nat.lt_of_lt_of_le hc h.count))]
    exact h.stays e hc he
  · intro e hc hz
    rw [Streams.own_connect, if_neg (Nat.ne_of_lt (Nat.lt_of_lt_of_le hc h.count))]
    exact h.closed e hc hz

end Accounted
end Handoff
