import Handoff.Handle.Table

namespace Handoff

section Association
variable {κ α : Type} [DecidableEq κ]

theorem lookup_cons_if (k x : κ) (a : α) (l : List (κ × α)) :
    ((k, a) :: l).lookup x = if x = k then some a else l.lookup x := by
  rw [List.lookup_cons]
  by_cases h : x = k <;> simp [h, beq_false_of_ne]

theorem lookup_filter_ne (l : List (κ × α)) (k x : κ) :
    (l.filter fun p => p.1 != k).lookup x = if x = k then none else l.lookup x := by
  induction l with
  | nil => simp
  | cons p rest ih =>
    obtain ⟨k', a⟩ := p
    by_cases hk : k' = k
    · subst hk
      rw [List.filter_cons_of_neg (by simp), ih, lookup_cons_if]
      split <;> rfl
    · rw [List.filter_cons_of_pos (by simpa using hk), lookup_cons_if, lookup_cons_if, ih]
      by_cases hx : x = k'
      · simp [hx, hk]
      · simp [hx]

theorem mem_of_lookup {l : List (κ × α)} {k : κ} {a : α} (h : l.lookup k = some a) :
    (k, a) ∈ l := by
  obtain ⟨front, back, rfl, _⟩ := List.lookup_eq_some_iff.mp h
  simp

end Association

theorem lookup_place {α : Type} (k x : UInt32) (a : α) (l : List (UInt32 × α)) :
    (place k a l).lookup x = if x = k then some a else l.lookup x := by
  induction l with
  | nil => simp [place, lookup_cons_if]
  | cons p rest ih =>
    obtain ⟨k', a'⟩ := p
    unfold place
    split
    · rw [lookup_cons_if]
    · split
      · subst_vars
        rw [lookup_cons_if, lookup_cons_if]
        split <;> rfl
      · rename_i hne
        rw [lookup_cons_if, lookup_cons_if, ih]
        by_cases h : x = k'
        · simp [h, Ne.symm hne]
        · simp [h]

theorem lookup_of_mem {α : Type} {l : List (UInt32 × α)} {k : UInt32} {a : α}
    (ascending : (l.map Prod.fst).Pairwise (· < ·)) (h : (k, a) ∈ l) : l.lookup k = some a := by
  induction l with
  | nil => simp at h
  | cons p rest ih =>
    obtain ⟨k', a'⟩ := p
    simp only [List.map_cons, List.pairwise_cons] at ascending
    rcases List.mem_cons.mp h with he | hm
    · cases he
      simp
    · have hlt : k' < k := ascending.1 k (List.mem_map.mpr ⟨(k, a), hm, rfl⟩)
      have hne : k ≠ k' := fun he => UInt32.lt_irrefl k' (he ▸ hlt)
      simpa [lookup_cons_if, hne] using ih ascending.2 hm

namespace HandleTable
variable {α : Type} {t : HandleTable α} {h : Handle} {a : α}

def find? (t : HandleTable α) (h : Handle) : Option α :=
  t.live.lookup h.raw

theorem get_eq : t.get h = match t.find? h with
    | some a => .ok a
    | none => .error (.badHandle h) := rfl

theorem get_ok_iff : t.get h = .ok a ↔ t.find? h = some a := by
  rw [get_eq]
  cases t.find? h <;> simp

theorem isLive_eq_true_iff {v : UInt32} : t.isLive v = true ↔ ∃ a, t.find? ⟨v⟩ = some a :=
  Option.isSome_iff_exists

theorem isLive_eq_false_iff {v : UInt32} : t.isLive v = false ↔ t.find? ⟨v⟩ = none :=
  Option.isSome_eq_false_iff.trans Option.isNone_iff_eq_none

theorem mem_live_iff {v : UInt32} : (v, a) ∈ t.live ↔ t.find? ⟨v⟩ = some a :=
  ⟨lookup_of_mem t.ascending, mem_of_lookup⟩

@[simp] theorem find?_empty (kind : HandleKind) (base : UInt32) :
    (empty kind base : HandleTable α).find? h = none := rfl

theorem find?_allocate (t : HandleTable α) (a : α) (h : Handle) :
    (t.allocate a).2.find? h = if h = (t.allocate a).1 then some a else t.find? h := by
  obtain ⟨v⟩ := h
  simp [find?, allocate, lookup_place]

theorem find?_allocated (t : HandleTable α) (a : α) :
    (t.allocate a).2.find? (t.allocate a).1 = some a := by
  rw [find?_allocate, if_pos rfl]

theorem find?_erase (t : HandleTable α) (x h : Handle) :
    (t.erase x).find? h = if h = x then none else t.find? h := by
  obtain ⟨v⟩ := h
  obtain ⟨w⟩ := x
  simp [find?, erase, lookup_filter_ne]

theorem find?_modify (t : HandleTable α) (x h : Handle) (f : α → α) :
    (t.modify x f).find? h = if h = x then (t.find? h).map f else t.find? h := by
  obtain ⟨v⟩ := h
  obtain ⟨w⟩ := x
  have hl : ∀ l : List (UInt32 × α),
      (l.map fun p => (p.1, if p.1 = w then f p.2 else p.2)).lookup v =
        if v = w then (l.lookup v).map f else l.lookup v := by
    intro l
    induction l with
    | nil => simp
    | cons p rest ih =>
      obtain ⟨k, a⟩ := p
      by_cases hk : v = k
      · subst hk
        by_cases hv : v = w <;> simp [hv]
      · simpa [lookup_cons_if, hk] using ih
  simpa [find?, modify] using hl t.live

theorem close_eq (t : HandleTable α) (h : Handle) : t.close h = match t.find? h with
    | some a => .ok (a, t.erase h)
    | none => .error (.badHandle h) := by
  rw [close, get_eq]
  cases t.find? h <;> rfl

theorem close_ok_iff {t' : HandleTable α} :
    t.close h = .ok (a, t') ↔ t.find? h = some a ∧ t' = t.erase h := by
  rw [close_eq]
  cases t.find? h <;> simp [eq_comm]

theorem mem_handlesWhere {p : α → Bool} :
    h ∈ t.handlesWhere p ↔ ∃ a, t.find? h = some a ∧ p a = true := by
  obtain ⟨v⟩ := h
  simp only [handlesWhere, List.mem_filterMap, Option.ite_none_right_eq_some, Option.some.injEq,
    Handle.mk.injEq]
  constructor
  · rintro ⟨⟨k, a⟩, hm, hp, rfl⟩
    exact ⟨a, mem_live_iff.mp hm, hp⟩
  · rintro ⟨a, ha, hp⟩
    exact ⟨(v, a), mem_live_iff.mpr ha, hp, rfl⟩

theorem mem_handles : h ∈ t.handles ↔ ∃ a, t.find? h = some a :=
  mem_handlesWhere.trans (by simp)

theorem mem_entries {a : α} : a ∈ t.entries ↔ ∃ h, t.find? h = some a := by
  simp only [entries, List.mem_map, Prod.exists, exists_eq_right]
  exact ⟨fun ⟨v, hv⟩ => ⟨⟨v⟩, mem_live_iff.mp hv⟩, fun ⟨⟨v⟩, hv⟩ => ⟨v, mem_live_iff.mpr hv⟩⟩

/-- Handles are listed in the order of their values. -/
theorem ascending_handlesWhere (t : HandleTable α) (p : α → Bool) :
    ((t.handlesWhere p).map Handle.raw).Pairwise (· < ·) := by
  have hs : ((t.handlesWhere p).map Handle.raw).Sublist (t.live.map Prod.fst) := by
    unfold handlesWhere
    induction t.live with
    | nil => simp
    | cons q rest ih =>
      rw [List.filterMap_cons]
      split
      · exact ih.cons _
      · rename_i h hq
        obtain ⟨-, he⟩ := Option.ite_none_right_eq_some.mp hq
        cases he
        exact ih.cons_cons _
  exact t.ascending.sublist hs

section Count
variable {β : Type} [DecidableEq β] {g : α → β}

/-- An entry more, at the place of another at most. -/
theorem count_allocate (t : HandleTable α) (a : α) (e : β) :
    ((t.allocate a).2.entries.map g).count e ≤ (t.entries.map g).count e + [g a].count e := by
  have hplace : ∀ l : List (UInt32 × α), (((place t.nextRaw a l).map Prod.snd).map g).count e ≤
      ((l.map Prod.snd).map g).count e + [g a].count e := by
    intro l
    induction l with
    | nil => simp [place]
    | cons p rest ih =>
      obtain ⟨k, b⟩ := p
      unfold place
      split
      · simp only [List.map_cons, List.count_cons, List.count_nil]
        omega
      · split
        · simp only [List.map_cons, List.count_cons, List.count_nil]
          omega
        · simp only [List.map_cons, List.count_cons, List.count_nil] at ih ⊢
          omega
  exact hplace t.live

/-- The entry of a handle is gone with it. -/
theorem count_erase (hf : t.find? h = some a) (e : β) :
    ((t.erase h).entries.map g).count e + [g a].count e ≤ (t.entries.map g).count e := by
  have herase : ∀ l : List (UInt32 × α), l.lookup h.raw = some a →
      (((l.filter fun p => p.1 != h.raw).map Prod.snd).map g).count e + [g a].count e ≤
        ((l.map Prod.snd).map g).count e := by
    intro l hl
    induction l with
    | nil => cases hl
    | cons p rest ih =>
      obtain ⟨k, b⟩ := p
      rw [lookup_cons_if] at hl
      by_cases hk : h.raw = k
      · rw [if_pos hk] at hl
        cases hl
        have hsub : (((rest.filter fun p => p.1 != h.raw).map Prod.snd).map g).count e ≤
            ((rest.map Prod.snd).map g).count e :=
          ((List.filter_sublist.map _).map _).count_le e
        simp only [List.filter_cons, hk, bne_self_eq_false, Bool.false_eq_true, if_false,
          List.map_cons, List.count_cons, List.count_nil] at hsub ⊢
        omega
      · rw [if_neg hk] at hl
        have hrest := ih hl
        have hne : (k != h.raw) = true := by simpa using Ne.symm hk
        simp only [List.filter_cons, hne, if_true, List.map_cons, List.count_cons,
          List.count_nil] at hrest ⊢
        omega
  exact herase t.live hf

end Count

end HandleTable
end Handoff
