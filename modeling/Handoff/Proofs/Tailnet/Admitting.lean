import Handoff.Proofs.Tailnet.Fates

namespace Handoff.Tailnet
variable {t : Tailnet} {n : NodeId}

namespace Settings

/-- A node with these settings needs no login: it has a key, or one that came up in the same
directory has left its state there. -/
def Admits (s : Settings) (files : Files) : Prop :=
  s.authkey ≠ none ∨ ∃ path, s.stateFile = some path ∧ files.exists? path = true

def save (s : Settings) (host : Option Nat) (files : Files) : Except Fault Files :=
  match s.stateFile with
  | none => .ok files
  | some path =>
    if s.ephemeral then .ok files
    else
      let text := String.ofList (savedState { settings := s, host })
      (files.write path (Text.utf8 text)).mapError (.writeState path)

end Settings

inductive StartsAs (t : Tailnet) (n : NodeId) (s : Settings) :
    Except Fault Unit × Tailnet → Prop where
  | badUrl (url : String) : s.controlUrl = some url → ¬ s.HasUrl →
    StartsAs t n s (.error (.badControlUrl url), t)
  | noDirectory (dir : String) (e : SystemError) : s.HasUrl → s.dir = some dir →
    (t.files.makeDirectories dir).1 = .error e →
    StartsAs t n s (.error (.stateDirectory dir e),
      { t with files := (t.files.makeDirectories dir).2 })
  | started (u : Tailnet) : s.HasUrl →
    (∀ dir, s.dir = some dir → (t.files.makeDirectories dir).1 = .ok ()) →
    u.Runs n → u.registry = t.registry.addHost s.name → StartsAs t n s (.ok (), u)

inductive ComesUp (t : Tailnet) (n : NodeId) (s : Settings) :
    Except Fault Unit × Tailnet → Prop where
  | online : (t.node n).online = true → ComesUp t n s (.ok (), t)
  | needsLogin : (t.node n).online = false → ¬ s.Admits t.files →
    ComesUp t n s (.error .needsLogin, t)
  | unsaved (f : Fault) : (t.node n).online = false → s.Admits t.files →
    s.save (t.node n).host t.files = .error f → ComesUp t n s (.error f, t)
  | admitted (files : Files) : (t.node n).online = false → s.Admits t.files →
    s.save (t.node n).host t.files = .ok files →
    ComesUp t n s (.ok (),
      ({ t with files }.setNode n { t.node n with online := true }).log n "up")

theorem urlFault_eq_some {s : Settings} {f : Fault} (h : s.urlFault = some f) :
    ∃ url, s.controlUrl = some url ∧ f = .badControlUrl url := by
  unfold Settings.urlFault at h
  split at h
  · cases h
  · rename_i url hurl
    split at h
    · cases h
    · exact ⟨url, hurl, (Option.some.inj h).symm⟩

theorem makeStateDirectory_error {f : Fault} {u : Tailnet}
    (h : t.makeStateDirectory n = (.error f, u)) : ∃ dir e,
      (t.node n).settings.dir = some dir ∧ (t.files.makeDirectories dir).1 = .error e ∧
      f = .stateDirectory dir e ∧ u = { t with files := (t.files.makeDirectories dir).2 } := by
  unfold makeStateDirectory at h
  split at h
  · cases h
  · rename_i dir hdir
    dsimp only at h
    obtain ⟨hmade, rfl⟩ := Prod.mk.inj h
    cases he : (t.files.makeDirectories dir).1 with
    | ok => rw [he] at hmade; cases hmade
    | error e =>
      rw [he] at hmade
      exact ⟨dir, e, hdir, he, (Except.error.inj hmade).symm, rfl⟩

theorem startsAs_start (hf : (t.node n).phase = .fresh) :
    StartsAs t n (t.node n).settings (t.start n) := by
  by_cases hready : (t.start n).1 = .ok ()
  · rcases start_outcomes t n with ⟨hr, -⟩ | ⟨f, files, he⟩ | ⟨hready', files, he⟩
    · cases hf.symm.trans hr
    · rw [he] at hready
      cases hready
    · have hruns := runs_start hready
      rw [he] at hruns ⊢
      exact .started _ hready'.url hready'.directory hruns rfl
  · unfold start at hready ⊢
    rw [hf] at hready ⊢
    dsimp only at hready ⊢
    cases hu : (t.node n).settings.urlFault with
    | some f =>
      obtain ⟨url, hurl, rfl⟩ := urlFault_eq_some hu
      refine .badUrl url hurl fun h => ?_
      cases hu.symm.trans (urlFault_eq_none.mpr h)
    | none =>
      rw [hu] at hready
      dsimp only at hready ⊢
      cases hd : t.makeStateDirectory n with
      | mk r u =>
        rw [hd] at hready
        cases r with
        | ok => exact absurd rfl hready
        | error f =>
          obtain ⟨dir, e, hdir, hmade, rfl, rfl⟩ := makeStateDirectory_error hd
          exact .noDirectory dir e (urlFault_eq_none.mp hu) hdir hmade

theorem not_admits_iff : ¬ (t.node n).settings.Admits t.files ↔
    ((t.node n).settings.authkey.isNone && !t.hasSavedState n) = true := by
  unfold Settings.Admits hasSavedState
  cases (t.node n).settings.authkey <;> cases (t.node n).settings.stateFile <;> simp

theorem saveState_eq (t : Tailnet) (n : NodeId) : t.saveState n =
    ((t.node n).settings.save (t.node n).host t.files).map fun files => { t with files } := by
  have htext : savedState { settings := (t.node n).settings, host := (t.node n).host } =
      savedState (t.node n) := rfl
  unfold saveState Settings.save
  rw [htext]
  dsimp only
  cases (t.node n).settings.stateFile with
  | none => rfl
  | some path =>
    dsimp only
    split
    · rfl
    · generalize t.files.write path _ = r
      cases r <;> rfl

theorem comesUp_running (hr : t.Runs n) : ComesUp t n (t.node n).settings (t.up n) := by
  unfold up
  rw [start_running hr]
  dsimp only
  by_cases ho : (t.node n).online = true
  · rw [if_pos ho]
    exact .online ho
  rw [if_neg ho]
  rw [Bool.not_eq_true] at ho
  by_cases ha : (t.node n).settings.Admits t.files
  · rw [if_neg fun h => not_admits_iff.mpr h ha, saveState_eq]
    cases hs : (t.node n).settings.save (t.node n).host t.files with
    | error f => exact .unsaved f ho ha hs
    | ok files => exact .admitted files ho ha hs
  · rw [if_pos (not_admits_iff.mp ha)]
    exact .needsLogin ho ha

theorem up_failed {f : Fault} (hs : (t.start n).1 = .error f) : t.up n = t.start n := by
  have hstart : t.start n = (.error f, (t.start n).2) := Prod.ext hs rfl
  unfold up
  rw [hstart]

/-- Bringing up a node starts it first. -/
theorem up_start (hs : (t.start n).1 = .ok ()) : t.up n = (t.start n).2.up n := by
  have hruns := runs_start hs
  have hstart : t.start n = (.ok (), (t.start n).2) := Prod.ext hs rfl
  unfold up
  rw [start_running hruns, hstart]

end Handoff.Tailnet
