import Handoff.Proofs.Handle.Cycle

namespace Handoff.HandleTable

inductive Request (α : Type) where
  | allocate (entry : α)
  | close (h : Handle)
  | get (h : Handle)
  | contains (h : Handle)
  | handlesWhere (p : α → Bool)

inductive Answer (α : Type) where
  | handle (h : Handle)
  | entry (result : Except BridgeError α)
  | flag (b : Bool)
  | handles (hs : List Handle)

section
variable {α : Type}

def serve (t : HandleTable α) : Request α → Answer α × HandleTable α
  | .allocate a => (.handle (t.allocate a).1, (t.allocate a).2)
  | .close h =>
    match t.close h with
    | .ok (a, t) => (.entry (.ok a), t)
    | .error e => (.entry (.error e), t)
  | .get h => (.entry (t.get h), t)
  | .contains h => (.flag (t.contains h), t)
  | .handlesWhere p => (.handles (t.handlesWhere p), t)

end

/-- One request of a run, and the table it was made to. -/
structure Moment (α : Type) where
  table : HandleTable α
  request : Request α

namespace Moment
variable {α : Type}

def answer (m : Moment α) : Answer α :=
  (m.table.serve m.request).1

def after (m : Moment α) : HandleTable α :=
  (m.table.serve m.request).2

def Issues (m : Moment α) (h : Handle) (a : α) : Prop :=
  m.request = .allocate a ∧ m.answer = .handle h

def Retires (m : Moment α) (h : Handle) : Prop :=
  m.request = .close h ∧ ∃ a, m.answer = .entry (.ok a)

def Skips (m : Moment α) (v : Handle) : Prop :=
  (∃ a, m.request = .allocate a) ∧ v.raw ∈ m.table.skipped

def issued? (m : Moment α) : Option Handle :=
  match m.answer with
  | .handle h => some h
  | _ => none

end Moment

section History
variable {α : Type} {kind : HandleKind} {base : UInt32} {log before between : List (Moment α)}
  {t : HandleTable α} {m m' : Moment α} {h v : Handle} {a b : α}

/-- A run from the empty table. Something is allocated only while a value is free. -/
inductive Run (kind : HandleKind) (base : UInt32) : List (Moment α) → HandleTable α → Prop where
  | start : Run kind base [] (.empty kind base)
  | step {log : List (Moment α)} {t : HandleTable α} {r : Request α} (run : Run kind base log t)
      (room : ∀ a, r = .allocate a → t.HasRoom) : Run kind base (log ++ [⟨t, r⟩]) (t.serve r).2

/-- `h` was issued for `a` and has not been retired since. -/
def Holds (log : List (Moment α)) (h : Handle) (a : α) : Prop :=
  ∃ before m after, log = before ++ m :: after ∧ m.Issues h a ∧ ∀ x ∈ after, ¬ x.Retires h

def issued (log : List (Moment α)) : List Handle :=
  log.filterMap Moment.issued?

/-- What a table has to answer after `before`, by what happened so far alone. -/
def Answered (base : UInt32) (before : List (Moment α)) (m : Moment α) : Prop :=
  match m.request with
  | .allocate _ =>
    ∃ h, m.answer = .handle h ∧ InRange base h.raw ∧ ∀ a, ¬ Holds before h a
  | .close h =>
    (∀ a, m.answer = .entry (.ok a) ↔ Holds before h a) ∧
      ((∀ a, ¬ Holds before h a) → m.answer = .entry (.error (.badHandle h)) ∧ m.after = m.table)
  | .get h =>
    (∀ a, m.answer = .entry (.ok a) ↔ Holds before h a) ∧
      ((∀ a, ¬ Holds before h a) → m.answer = .entry (.error (.badHandle h))) ∧
      m.after = m.table
  | .contains h =>
    (m.answer = .flag true ↔ ∃ a, Holds before h a) ∧
      ((∀ a, ¬ Holds before h a) → m.answer = .flag false) ∧ m.after = m.table
  | .handlesWhere p =>
    ∃ hs, m.answer = .handles hs ∧ (hs.map Handle.raw).Pairwise (· < ·) ∧
      (∀ h, h ∈ hs ↔ ∃ a, Holds before h a ∧ p a = true) ∧ m.after = m.table

theorem issued?_eq_some_iff : m.issued? = some h ↔ ∃ a, m.Issues h a := by
  obtain ⟨t, r⟩ := m
  cases r with
  | allocate a => simp [Moment.issued?, Moment.Issues, Moment.answer, serve]
  | close x =>
    simp only [Moment.issued?, Moment.Issues, Moment.answer, serve]
    cases t.close x <;> simp
  | get x => simp [Moment.issued?, Moment.Issues, Moment.answer, serve]
  | contains x => simp [Moment.issued?, Moment.Issues, Moment.answer, serve]
  | handlesWhere p => simp [Moment.issued?, Moment.Issues, Moment.answer, serve]

theorem mem_issued : h ∈ issued log ↔ ∃ x ∈ log, ∃ a, x.Issues h a := by
  simp only [issued, List.mem_filterMap, issued?_eq_some_iff]

/-- The last entry of a list with one more at its end. -/
theorem concat_eq_split {x : Moment α} {after : List (Moment α)}
    (he : log ++ [m] = before ++ x :: after) :
    (before = log ∧ x = m ∧ after = []) ∨
      ∃ rest, after = rest ++ [m] ∧ log = before ++ x :: rest := by
  rcases List.eq_nil_or_concat' after with rfl | ⟨rest, y, rfl⟩
  · left
    obtain ⟨rfl, hm⟩ := List.append_inj' he rfl
    simp_all
  · right
    rw [← List.cons_append, ← List.append_assoc] at he
    obtain ⟨hl, hm⟩ := List.append_inj' he rfl
    exact ⟨rest, by simp_all, hl⟩

theorem holds_concat : Holds (log ++ [m]) h a ↔ m.Issues h a ∨ (Holds log h a ∧ ¬ m.Retires h) := by
  constructor
  · rintro ⟨before, x, after, he, hi, hr⟩
    rcases concat_eq_split he with ⟨-, rfl, -⟩ | ⟨rest, rfl, rfl⟩
    · exact .inl hi
    · refine .inr ⟨⟨before, x, rest, rfl, hi, fun y hy => hr y ?_⟩, hr m ?_⟩
      · exact List.mem_append_left _ hy
      · simp
  · rintro (hi | ⟨⟨before, x, after, rfl, hi, hr⟩, hm⟩)
    · exact ⟨log, m, [], rfl, hi, by simp⟩
    · refine ⟨before, x, after ++ [m], by simp, hi, fun y hy => ?_⟩
      rcases List.mem_append.mp hy with hy | hy
      · exact hr y hy
      · rwa [List.mem_singleton.mp hy]

theorem Holds.mem_issued (hh : Holds log h a) : h ∈ issued log := by
  obtain ⟨before, x, after, rfl, hi, -⟩ := hh
  exact HandleTable.mem_issued.mpr ⟨x, by simp, a, hi⟩

theorem base_serve (t : HandleTable α) (r : Request α) : (t.serve r).2.base = t.base := by
  cases r with
  | close x =>
    simp only [serve, close_eq]
    cases t.find? x <;> rfl
  | _ => rfl

theorem tidy_serve (ht : t.Tidy) (r : Request α) : (t.serve r).2.Tidy := by
  cases r with
  | allocate a => exact ht.allocate a
  | close x =>
    simp only [serve, close_eq]
    cases t.find? x with
    | none => exact ht
    | some a => exact ht.erase x
  | _ => exact ht

theorem Run.base_eq (run : Run kind base log t) : t.base = base := by
  induction run with
  | start => rfl
  | step run room ih => rw [base_serve, ih]

theorem Run.tidy (run : Run kind base log t) (hb : base ≤ maxRaw) : t.Tidy := by
  induction run with
  | start => exact tidy_empty kind hb
  | step run room ih => exact tidy_serve ih _

/-- A moment of a run, with what came before it. -/
theorem Run.at (run : Run kind base log t) (he : log = before ++ m :: between) :
    Run kind base before m.table ∧ ∀ a, m.request = .allocate a → m.table.HasRoom := by
  induction run generalizing between with
  | start => simp at he
  | step run room ih =>
    rcases concat_eq_split he with ⟨rfl, rfl, -⟩ | ⟨rest, -, rfl⟩
    · exact ⟨run, room⟩
    · exact ih rfl

/-- The entries of a table are what its history says they are. -/
theorem Run.find?_eq_some_iff (run : Run kind base log t) (hb : base ≤ maxRaw) :
    t.find? h = some a ↔ Holds log h a := by
  induction run generalizing h a with
  | start => simp [Holds]
  | @step log t r run room ih =>
    rw [holds_concat, ← ih]
    cases r with
    | allocate c =>
      have hnone : t.find? (t.allocate c).1 = none := find?_nextRaw (run.tidy hb) (room c rfl)
      change (t.allocate c).2.find? h = some a ↔ _
      rw [find?_allocate]
      split
      · subst h
        simp [Moment.Issues, Moment.answer, serve, hnone]
      · rename_i hne
        simp [Moment.Issues, Moment.Retires, Moment.answer, serve, Ne.symm hne]
    | close x =>
      simp only [serve, close_eq, Moment.Issues, Moment.Retires, Moment.answer]
      cases hx : t.find? x with
      | none => simp
      | some c =>
        simp only [find?_erase]
        by_cases he : h = x
        · simp [he]
        · simp [he, Ne.symm he]
    | _ => simp [serve, Moment.Issues, Moment.Retires]

theorem Run.find?_eq_none (run : Run kind base log t) (hb : base ≤ maxRaw)
    (hn : ∀ a, ¬ Holds log h a) : t.find? h = none := by
  cases he : t.find? h with
  | none => rfl
  | some a => exact absurd ((run.find?_eq_some_iff hb).mp he) (hn a)

theorem answered_of_run (run : Run kind base before m.table) (hb : base ≤ maxRaw)
    (room : ∀ a, m.request = .allocate a → m.table.HasRoom) : Answered base before m := by
  obtain ⟨t, r⟩ := m
  have holds {h : Handle} {a : α} := run.find?_eq_some_iff hb (h := h) (a := a)
  have free {h : Handle} := run.find?_eq_none hb (h := h)
  dsimp only at run room holds free
  cases r with
  | allocate a =>
    refine ⟨_, rfl, ?_, fun b hh => ?_⟩
    · have hin := inRange_nextRaw (run.tidy hb)
      rwa [run.base_eq] at hin
    · have hnone := find?_nextRaw (run.tidy hb) (room a rfl)
      exact Option.some_ne_none b ((holds.mpr hh).symm.trans hnone)
  | close x =>
    simp only [Answered, Moment.answer, Moment.after, serve, close_eq]
    constructor
    · intro a
      rw [← holds]
      cases t.find? x <;> simp
    · intro hn
      rw [free hn]
      exact ⟨rfl, rfl⟩
  | get x =>
    simp only [Answered, Moment.answer, Moment.after, serve, Answer.entry.injEq]
    refine ⟨fun a => ?_, fun hn => ?_, trivial⟩
    · rw [← holds, get_ok_iff]
    · rw [get_eq, free hn]
  | contains x =>
    simp only [Answered, Moment.answer, Moment.after, serve, Answer.flag.injEq, contains]
    refine ⟨?_, fun hn => ?_, trivial⟩
    · rw [isLive_eq_true_iff]
      exact exists_congr fun a => holds
    · exact isLive_eq_false_iff.mpr (free hn)
  | handlesWhere p =>
    refine ⟨_, rfl, ascending_handlesWhere t p, fun h => ?_, rfl⟩
    rw [mem_handlesWhere]
    exact exists_congr fun a => and_congr_left fun _ => holds

end History
end Handoff.HandleTable
