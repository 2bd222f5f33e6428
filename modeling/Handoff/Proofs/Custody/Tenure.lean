import Handoff.Proofs.Custody.System

namespace Handoff.Custody

/-- What was noted while tables changed: handles that became live were issued, and one that was
retired was live and is no more. -/
structure Notes (tables tables' : Nat → Tables) (new : List Deed) : Prop where
  issued : ∀ i k, (tables' i).holds (.conn, k) = true →
    (tables i).holds (.conn, k) = true ∨ .issued i k ∈ new
  retired : ∀ i k, .retired i k ∈ new → new = [.retired i k] ∧
    (tables i).holds (.conn, k) = true ∧ (tables' i).holds (.conn, k) = false

/-- A handle that was retired and not issued since is not live, so it is not retired twice. -/
structure Tenured (deeds : List Deed) (tables : Nat → Tables) : Prop where
  gone : ∀ i k before after, deeds = before ++ .retired i k :: after → .issued i k ∉ after →
    (tables i).holds (.conn, k) = false
  once : ∀ i k before between after,
    deeds = before ++ .retired i k :: between ++ .retired i k :: after → .issued i k ∈ between

variable {deeds new : List Deed} {tables tables' : Nat → Tables} {b b' : Bridge Tailnet}
  {c c' : Custody} {i : Nat} {v : Verb} {r : Reaction} {k : Handle}

/-- What stands between two parts of a list is in the one or in the other. -/
theorem append_split {α : Type} {old new before after : List α} {x : α}
    (h : old ++ new = before ++ x :: after) :
    (∃ mid, old = before ++ x :: mid ∧ after = mid ++ new) ∨
      ∃ front, new = front ++ x :: after ∧ before = old ++ front := by
  rcases List.append_eq_append_iff.mp h with ⟨front, hb, hn⟩ | ⟨mid, ho, hx⟩
  · exact .inr ⟨front, hn, hb⟩
  · cases mid with
    | nil =>
      rw [List.append_nil] at ho
      exact .inr ⟨[], hx.symm, by rw [ho, List.append_nil]⟩
    | cons y mid =>
      rw [List.cons_append, List.cons.injEq] at hx
      obtain ⟨rfl, rfl⟩ := hx
      exact .inl ⟨mid, ho, rfl⟩

theorem Tenured.next (h : Tenured deeds tables) (hn : Notes tables tables' new) :
    Tenured (deeds ++ new) tables' := by
  constructor
  · intro i k before after he ha
    rcases append_split he with ⟨mid, hd, rfl⟩ | ⟨front, hnew, -⟩
    · rw [List.mem_append, not_or] at ha
      have hgone := h.gone i k before mid hd ha.1
      by_contra hlive
      rcases hn.issued i k ((Bool.not_eq_false _).mp hlive) with hwas | hissued
      · rw [hgone] at hwas
        cases hwas
      · exact ha.2 hissued
    · have hmem : .retired i k ∈ new := by
        rw [hnew]
        exact List.mem_append_right _ (List.mem_cons_self ..)
      exact (hn.retired i k hmem).2.2
  · intro i k before between after he
    rcases append_split he with ⟨mid, hd, -⟩ | ⟨front, hnew, hd⟩
    · exact h.once i k before between mid hd
    · -- the handle is retired anew, so that it was live
      have hmem : .retired i k ∈ new := by
        rw [hnew]
        exact List.mem_append_right _ (List.mem_cons_self ..)
      obtain ⟨hone, hwas, -⟩ := hn.retired i k hmem
      have hfront : front = [] := by
        rw [hone] at hnew
        cases front with
        | nil => rfl
        | cons y front => simp at hnew
      rw [hfront, List.append_nil] at hd
      by_contra hissued
      rw [h.gone i k before between hd.symm hissued] at hwas
      cases hwas

/-- Only the tables of one bridge change. -/
theorem Notes.assign {T T' : Tables} (hT : tables i = T)
    (hissued : ∀ k, T'.holds (.conn, k) = true → T.holds (.conn, k) = true ∨ .issued i k ∈ new)
    (hretired : ∀ j k, .retired j k ∈ new → j = i ∧ new = [.retired j k] ∧
      T.holds (.conn, k) = true ∧ T'.holds (.conn, k) = false) :
    Notes tables (assign tables i T') new := by
  subst hT
  constructor
  · intro j k hk
    rw [assign_apply] at hk
    split at hk
    · subst j
      exact hissued k hk
    · exact .inl hk
  · intro j k hk
    obtain ⟨rfl, hnew, hwas, hnow⟩ := hretired j k hk
    rw [assign_same]
    exact ⟨hnew, hwas, hnow⟩

theorem issued_mem_deeds (h : v.issued? r = some (.conn, k)) : .issued i k ∈ v.deeds i r := by
  have hnone : v.issues? ≠ none := by
    intro hv
    unfold Verb.issued? at h
    split at h
    · rw [hv] at h
      cases h
    · cases h
  unfold Verb.deeds
  split
  · exact absurd rfl hnone
  · exact absurd rfl hnone
  · rw [h]
    exact List.mem_singleton_self _

/-- Only a take or a close that succeeds is noted as one. -/
theorem retired_mem_deeds {j : Nat} (h : .retired j k ∈ v.deeds i r) :
    j = i ∧ v.deeds i r = [.retired j k] ∧ v.retires? = some (.conn, k) ∧
      ∃ a, r = .ends (.ok a) := by
  unfold Verb.deeds at h ⊢
  split at h
  · rw [List.mem_singleton, Deed.retired.injEq] at h
    obtain ⟨rfl, rfl⟩ := h
    exact ⟨rfl, rfl, rfl, _, rfl⟩
  · rw [List.mem_singleton, Deed.retired.injEq] at h
    obtain ⟨rfl, rfl⟩ := h
    exact ⟨rfl, rfl, rfl, _, rfl⟩
  · split at h <;> simp at h

theorem mem_handles_of_retires {x : HandleKind × Handle} (h : v.retires? = some x) :
    x ∈ v.handles := by
  cases v <;> simp only [Verb.retires?, Option.some.injEq, reduceCtorEq] at h
  all_goals simp [Verb.handles, h]

/-- An operation that succeeds was called with handles that are live. -/
theorem holds_of_perform {a : Reply} {x : HandleKind × Handle}
    (h : (b.perform v).1 = .ends (.ok a)) (hx : x ∈ v.handles) : b.holds x = true := by
  have hchecks := b.perform_checks v
  rw [h] at hchecks
  cases hs : b.stale? v.handles with
  | none => exact Tables.stale?_eq_none.mp hs x hx
  | some y =>
    rw [hs] at hchecks
    cases hchecks

theorem notes_perform (c : Custody) (i : Nat) (v : Verb) :
    Notes c.tables (c.perform i v).tables (v.deeds i ((c.bridge i).perform v).1) := by
  apply Notes.assign (T := (c.bridge i).toTables) rfl
  · intro k hk
    exact ((c.bridge i).perform_adds v (.conn, k) hk).imp_right issued_mem_deeds
  · intro j k hk
    obtain ⟨rfl, hone, hv, a, ha⟩ := retired_mem_deeds hk
    exact ⟨rfl, hone, holds_of_perform ha (mem_handles_of_retires hv),
      ((c.bridge j).perform_retires hv).stale⟩

theorem notes_resume (c : Custody) (w : Waiter) : Notes c.tables (c.resume w).tables
    ((Verb.accept w.place.listener).deeds w.bridge (c.resumed w).1.reaction) := by
  have hadds : (c.bridge w.bridge).Adds
      ((Verb.accept w.place.listener).issued? (c.resumed w).1.reaction)
      (c.resumed w).2.toTables := by
    exact Bridge.adds_resume _ rfl w.ready w.place
  rw [tables_resume]
  apply Notes.assign (T := (c.bridge w.bridge).toTables) rfl
  · intro k hk
    exact (hadds (.conn, k) hk).imp_right issued_mem_deeds
  · intro j k hk
    obtain ⟨-, -, hv, -⟩ := retired_mem_deeds hk
    cases hv

/-- What is noted of handles is what happens to them. -/
theorem notes_move (h : Move c c') : ∃ new, c'.deeds = c.deeds ++ new ∧
    Notes c.tables c'.tables new := by
  have hsame : ∀ {new}, (∀ i k, .retired i k ∉ new) → Notes c.tables c.tables new := by
    intro new hnew
    exact ⟨fun _ _ => .inl, fun i k hk => absurd hk (hnew i k)⟩
  have hnone : Notes c.tables c.tables [] := hsame fun _ _ => List.not_mem_nil
  have hquiet : ∀ {i T'}, T'.conns = (c.tables i).conns →
      Notes c.tables (assign c.tables i T') [] := by
    intro i T' hT
    apply Notes.assign rfl
    · intro k hk
      left
      simpa [Tables.holds, hT] using hk
    · intro j k hk
      cases hk
  have hnil : c.deeds = c.deeds ++ [] := (List.append_nil _).symm
  cases h with
  | newServer i _ => exact ⟨[], hnil, hquiet rfl⟩
  | perform i v _ => exact ⟨_, rfl, notes_perform c i v⟩
  | resume w _ => exact ⟨_, rfl, notes_resume c w⟩
  | pump i k _ =>
    refine ⟨[], hnil, ?_⟩
    unfold Traffic.pump
    split
    · exact hquiet rfl
    · exact hnone
  | dropBridge i _ =>
    refine ⟨[], hnil, Notes.assign rfl ?_ ?_⟩
    · intro k hk
      cases hk
    · intro j k hk
      cases hk
  | newNode => exact ⟨[], hnil, hnone⟩
  | use n u _ _ =>
    refine ⟨[], hnil, ?_⟩
    rw [tables_use]
    exact hnone
  | closeListener l => exact ⟨[], hnil, hnone⟩
  | useFiles files => exact ⟨[], hnil, hnone⟩
  | useStream d u _ => exact ⟨_, rfl, hsame (c.net.streams.retired_notMem_deeds d u)⟩
  | release d _ => exact ⟨[], hnil, hnone⟩

theorem tenured_start : Tenured [] fun _ => {} where
  gone := fun _ _ before _ he => by simp at he
  once := fun _ _ before _ _ he => by simp at he

end Handoff.Custody
