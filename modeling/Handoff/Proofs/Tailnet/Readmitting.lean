import Handoff.Proofs.Tailnet.Persisting

/-!
Who needs no key: a node that is online, and one whose directory has something by the name of the
file that nodes leave. It is not looked whether that is a file.
-/

namespace Handoff.Tailnet
variable {t t' : Tailnet} {n : NodeId}

def CanSave (t : Tailnet) (n : NodeId) : Prop :=
  ∃ t', t.saveState n = .ok t'

/-- The node's directory contains the file that a node leaves there. -/
def HasState (t : Tailnet) (n : NodeId) : Prop :=
  ∃ path p, (t.node n).settings.stateFile = some path ∧ t.files.locate path = .ok p ∧
    t.files.HoldsFile p

/-- The node's directory contains a directory of that name instead. -/
def HasNamesake (t : Tailnet) (n : NodeId) : Prop :=
  ∃ path p, (t.node n).settings.stateFile = some path ∧ t.files.locate path = .ok p ∧
    t.files.entry p = some .directory

theorem hasSavedState_iff : t.hasSavedState n = true ↔ t.HasState n ∨ t.HasNamesake n := by
  unfold hasSavedState HasState HasNamesake
  cases (t.node n).settings.stateFile with
  | none => simp
  | some path =>
    dsimp only
    constructor
    · intro hexists
      obtain ⟨p, hp⟩ := Files.located_of_exists hexists
      exact ((Files.exists_iff hp).mp hexists).imp (⟨path, p, rfl, hp, ·⟩) (⟨path, p, rfl, hp, ·⟩)
    · rintro (⟨_, p, ⟨⟩, hp, h⟩ | ⟨_, p, ⟨⟩, hp, h⟩)
      · exact (Files.exists_iff hp).mpr (.inl h)
      · exact (Files.exists_iff hp).mpr (.inr h)

theorem canSave_of_ephemeral (h : (t.node n).settings.ephemeral = true) : t.CanSave n := by
  refine ⟨t, ?_⟩
  unfold saveState
  dsimp only
  split
  · rfl
  · exact if_pos h

/-- A node that leaves its state has no directory in the way. -/
theorem ephemeral_of_namesake (hsave : t.CanSave n) (h : t.HasNamesake n) :
    (t.node n).settings.ephemeral = true := by
  obtain ⟨path, p, hpath, hp, hd⟩ := h
  obtain ⟨u, hu⟩ := hsave
  by_contra he
  rw [Bool.not_eq_true] at he
  unfold saveState at hu
  dsimp only at hu
  rw [hpath] at hu
  dsimp only at hu
  rw [if_neg (by rw [he]; exact Bool.false_ne_true), Files.write_eq
    ((Settings.locateFile_stateFile hpath t.files).trans hp), hd] at hu
  cases hu

theorem up_ok_iff (hs : (t.start n).1 = .ok ()) (hsave : (t.start n).2.CanSave n) :
    (t.up n).1 = .ok () ↔ ((t.start n).2.node n).online = true ∨
      ((t.start n).2.node n).settings.authkey ≠ none ∨ (t.start n).2.HasState n ∨
        ((t.start n).2.node n).settings.ephemeral = true ∧ (t.start n).2.HasNamesake n := by
  have hcomes := comesUp_running (runs_start hs)
  rw [up_start hs]
  revert hcomes hsave
  generalize (t.start n).2 = u
  intro hsave hcomes
  have hadmits : (u.node n).settings.Admits u.files ↔ (u.node n).settings.authkey ≠ none ∨
      u.HasState n ∨ (u.node n).settings.ephemeral = true ∧ u.HasNamesake n := by
    have hnamesake : u.HasNamesake n ↔
        (u.node n).settings.ephemeral = true ∧ u.HasNamesake n :=
      ⟨fun h => ⟨ephemeral_of_namesake hsave h, h⟩, And.right⟩
    rw [← not_iff_not, not_admits_iff, ← hnamesake, ← hasSavedState_iff]
    simp [Option.isNone_iff_eq_none]
  rw [← hadmits]
  revert hcomes
  generalize u.up n = r
  intro hcomes
  cases hcomes with
  | online ho => exact iff_of_true rfl (.inl ho)
  | needsLogin ho ha => simp [ho, ha]
  | unsaved f ho ha hf =>
    obtain ⟨w, hw⟩ := hsave
    rw [saveState_eq, hf] at hw
    cases hw
  | admitted files ho ha => exact iff_of_true rfl (.inr ha)

/-- A node that is refused has started, and nothing else has happened. -/
theorem up_refused {f : Fault} (hs : (t.start n).1 = .ok ()) (hf : (t.up n).1 = .error f) :
    (t.up n).2 = (t.start n).2 ∧ (t.start n).2.Runs n ∧
      ((t.start n).2.node n).online = false := by
  have hcomes := comesUp_running (runs_start hs)
  rw [up_start hs] at hf ⊢
  revert hcomes hf
  generalize (t.start n).2.up n = r
  intro hf hcomes
  cases hcomes with
  | online => cases hf
  | needsLogin ho => exact ⟨rfl, runs_start hs, ho⟩
  | unsaved _ ho => exact ⟨rfl, runs_start hs, ho⟩
  | admitted => cases hf

theorem up_again (hr : t.Runs n) (ho : (t.node n).online = true) : t.up n = (.ok (), t) := by
  unfold up
  rw [start_running hr]
  exact if_pos ho

theorem online_up (h : (t.up n).1 = .ok ()) : ((t.up n).2.node n).online = true := by
  cases hs : (t.start n).1 with
  | error f =>
    rw [up_failed hs, hs] at h
    cases h
  | ok =>
    have hcomes := comesUp_running (runs_start hs)
    rw [up_start hs] at h ⊢
    revert hcomes h
    generalize (t.start n).2.up n = r
    intro h hcomes
    cases hcomes with
    | online ho => exact ho
    | needsLogin => cases h
    | unsaved => cases h
    | admitted files =>
      rw [node_log, node_setNode, if_pos rfl]

def Node.Steady (x : Node) : Prop :=
  x.online = true → x.phase = .running

theorem steady_ask (h : (t.node n).Steady) (v : NodeVerb) : ((t.ask n v).2.node n).Steady := by
  have hturn := turn_ask t n v
  revert hturn
  generalize t.ask n v = r
  intro hturn
  cases hturn with
  | set option hf =>
    have hsets := sets_configure option (t.node n)
    rw [node_setNode, if_pos rfl, Node.Steady, hsets.online, hsets.phase]
    exact h
  | refused => exact h
  | told => exact h
  | ran v r t' hp hw => exact fun _ => hw.runs (runs_start (passes_iff.mp hp).2)
  | ended t' _ hnode =>
    rw [hnode]
    exact nofun

theorem Meets.steady {P : Fate → Prop} (h : Meets P n t t') (ht : (t.node n).Steady) :
    (t'.node n).Steady := by
  induction h with
  | nothing hu => rwa [hu]
  | @next u w e _ _ hw ih =>
    rw [hw]
    cases e with
    | asked v => exact steady_ask ih v
    | released =>
      rw [meet, node_releaseNode, if_pos rfl]
      exact ih

end Handoff.Tailnet
