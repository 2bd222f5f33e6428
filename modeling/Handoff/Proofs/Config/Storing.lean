import Handoff.Config.Store
import Handoff.Proofs.Config.Reading
import Handoff.Proofs.Files.Writing
import Handoff.Proofs.Text.Utf8
import Mathlib.Data.List.Basic

/-!
Configurations that are saved: when a save succeeds, that a load from the same directory then gives
the configuration back, and what an environment makes of it.
-/

namespace Handoff.Config

structure Overrides (env : Environment) (c c' : Config) : Prop where
  stateDir : c'.stateDir = (env.get? "TSNET_BRIDGE_STATE_DIR").or c.stateDir
  hostname : c'.hostname = (env.get? "TSNET_BRIDGE_HOSTNAME").or c.hostname
  own_key : ∀ key, env.get? "TSNET_BRIDGE_AUTHKEY" = some key → c'.authkey = some key
  shared_key : env.get? "TSNET_BRIDGE_AUTHKEY" = none →
    c'.authkey = (env.get? "TS_AUTHKEY").or c.authkey
  controlUrl : c'.controlUrl = (env.get? "TSNET_BRIDGE_CONTROL_URL").or c.controlUrl
  /-- A value turns it on or off. -/
  ephemeral : ∀ v, env.get? "TSNET_BRIDGE_EPHEMERAL" = some v →
    (c'.ephemeral = true ↔ v = "1" ∨ v = "true")
  saved_ephemeral : env.get? "TSNET_BRIDGE_EPHEMERAL" = none → c'.ephemeral = c.ephemeral

theorem overrides_override (env : Environment) (c : Config) : Overrides env c (c.override env) := by
  refine ⟨Option.orElse_eq_or .., Option.orElse_eq_or .., ?_, ?_, Option.orElse_eq_or .., ?_, ?_⟩
  · intro key h
    simp only [override, h]
    rfl
  · intro h
    simp only [override, h, Option.orElse_eq_orElse, Option.orElse_eq_or, Option.none_or]
  · intro v h
    simp only [override, h, decide_eq_true_iff]
  · intro h
    simp only [override, h]

/-- The fields say all of it. -/
theorem Overrides.unique {env : Environment} {c c' c'' : Config} (h : Overrides env c c')
    (h' : Overrides env c c'') : c' = c'' := by
  have hkey : c'.authkey = c''.authkey := by
    cases hown : env.get? "TSNET_BRIDGE_AUTHKEY" with
    | none => exact (h.shared_key hown).trans (h'.shared_key hown).symm
    | some key => exact (h.own_key key hown).trans (h'.own_key key hown).symm
  have hephemeral : c'.ephemeral = c''.ephemeral := by
    cases hset : env.get? "TSNET_BRIDGE_EPHEMERAL" with
    | none => exact (h.saved_ephemeral hset).trans (h'.saved_ephemeral hset).symm
    | some v => exact Bool.eq_iff_iff.mpr ((h.ephemeral v hset).trans (h'.ephemeral v hset).symm)
  have hdir := h.stateDir.trans h'.stateDir.symm
  have hname := h.hostname.trans h'.hostname.symm
  have hurl := h.controlUrl.trans h'.controlUrl.symm
  cases c'
  cases c''
  rw [Config.mk.injEq]
  exact ⟨hdir, hname, hkey, hurl, hephemeral⟩

/-- An environment has nothing more to say of what it was asked about. -/
theorem Overrides.again {env : Environment} {c c' : Config} (h : Overrides env c c') :
    Overrides env c' c' where
  stateDir := by rw [h.stateDir, ← Option.or_assoc, Option.or_self]
  hostname := by rw [h.hostname, ← Option.or_assoc, Option.or_self]
  own_key := h.own_key
  shared_key hown := by rw [h.shared_key hown, ← Option.or_assoc, Option.or_self]
  controlUrl := by rw [h.controlUrl, ← Option.or_assoc, Option.or_self]
  ephemeral := h.ephemeral
  saved_ephemeral _ := rfl

theorem override_override (env : Environment) (c : Config) :
    (c.override env).override env = c.override env :=
  (overrides_override env (c.override env)).unique (overrides_override env c).again

theorem isName_fileName : Path.IsName fileName where
  nonempty := by decide
  not_here := by decide
  not_above := by decide
  no_slash := by decide

section Saving
variable {c : Config} {fs fs' : Files} {dir : String} {place : Place}

/-- What a save comes to by what stands at the place of the file. -/
theorem saveTo_eq (hp : fs.locate (Path.join dir fileName) = .ok place) :
    c.saveTo fs dir = match fs.entry place with
      | some .directory => .error (.unwritable (Path.join dir fileName) .isDirectory)
      | some .sink => .ok fs
      | _ => .ok (fs.put place (.file (Text.utf8 c.text) 0o600)) := by
  have hfile : fs.locateFile (Path.join dir fileName) = .ok place :=
    (Files.locateFile_eq_locate (isName_fileName.not_namesDirectory dir)).trans hp
  simp only [saveTo, Files.write_eq hfile]
  cases he : fs.entry place with
  | none => simp only [Files.setMode_put hp (by rw [he]; exact nofun)]; rfl
  | some e =>
    cases e with
    | directory => rfl
    | file content mode => simp only [Files.setMode_put hp (by rw [he]; exact nofun)]; rfl
    | sink =>
      have hset : fs.setMode (Path.join dir fileName) 0o600 = .ok fs := by
        rw [Files.setMode, hp]
        simp only [Except.bind, he]
      simp only [hset]
      rfl

theorem saveTo_unlocated {e : SystemError} (hp : fs.locate (Path.join dir fileName) = .error e) :
    c.saveTo fs dir = .error (.unwritable (Path.join dir fileName) e) := by
  have hfile : fs.locateFile (Path.join dir fileName) = .error e :=
    (Files.locateFile_eq_locate (isName_fileName.not_namesDirectory dir)).trans hp
  have hwrite : fs.write (Path.join dir fileName) (Text.utf8 c.text) = .error e := by
    rw [Files.write, Files.update, hfile]
    rfl
  simp only [saveTo, hwrite]

/-- A file can be saved where its path leads, unless there is a directory. -/
theorem saveTo_ok_iff : (∃ fs', c.saveTo fs dir = .ok fs') ↔
    ∃ place, fs.locate (Path.join dir fileName) = .ok place ∧
      fs.entry place ≠ some .directory := by
  constructor
  · intro ⟨fs', h⟩
    cases hp : fs.locate (Path.join dir fileName) with
    | error e => cases (saveTo_unlocated hp).symm.trans h
    | ok place =>
      refine ⟨place, rfl, fun hd => ?_⟩
      rw [saveTo_eq hp, hd] at h
      cases h
  · intro ⟨place, hp, hd⟩
    rw [saveTo_eq hp]
    split
    · exact absurd ‹_› hd
    · exact ⟨_, rfl⟩
    · exact ⟨_, rfl⟩

/-- Where nothing swallows it, a save leaves a file with the configuration's text. -/
theorem saveTo_ok (hsink : ∀ above, fs.entry (above ++ [fileName]) ≠ some .sink)
    (h : c.saveTo fs dir = .ok fs') :
    ∃ place, fs.locate (Path.join dir fileName) = .ok place ∧
      fs.entry place ≠ some .directory ∧
      fs' = fs.put place (.file (Text.utf8 c.text) 0o600) := by
  obtain ⟨place, hp, hd⟩ := saveTo_ok_iff.mp ⟨fs', h⟩
  obtain ⟨above, -, hplace⟩ := Files.locate_join isName_fileName hp
  refine ⟨place, hp, hd, ?_⟩
  rw [saveTo_eq hp] at h
  split at h
  · cases h
  · rename_i hs
    exact absurd (hplace ▸ hs) (hsink above)
  · exact (Except.ok.inj h).symm

theorem loadFrom_file {mode : Nat} (hp : fs.locate (Path.join dir fileName) = .ok place)
    (he : fs.entry place = some (.file (Text.utf8 c.text) mode)) : loadFrom fs dir = .ok c := by
  rw [loadFrom]
  simp only [Files.exists_of_entry hp he, Files.read_file hp he, Text.ofUtf8?_utf8, parse_text]
  rfl

/-- What is saved is loaded again. -/
theorem loadFrom_saved (hsink : ∀ above, fs.entry (above ++ [fileName]) ≠ some .sink)
    (h : c.saveTo fs dir = .ok fs') : loadFrom fs' dir = .ok c := by
  obtain ⟨place, hp, hd, rfl⟩ := saveTo_ok hsink h
  have hkeep := Files.directory_put_iff (e := .file (Text.utf8 c.text) 0o600) hd (by simp)
  exact loadFrom_file (Files.locate_of_directories (fun p => (hkeep p).mpr) hp) Files.entry_put

theorem directory_ok {env : Environment} (h : directory env fs = (.ok dir, fs')) :
    directoryPath env = some dir ∧ fs.makeDirectories dir = (.ok (), fs') := by
  unfold directory at h
  split at h
  · cases h
  · split at h
    · cases h
    · rename_i hpath _ _ hmade
      cases h
      exact ⟨hpath, hmade⟩

/-- The same where the directory is the one that the environment names, which a save makes. -/
theorem load_saved {env : Environment}
    (hsink : ∀ above, fs.entry (above ++ [fileName]) ≠ some .sink)
    (h : c.save env fs = (.ok (), fs')) : load env fs' = (.ok (c.override env), fs') := by
  unfold save at h
  split at h
  · cases h
  · rename_i dir fs₁ hdirectory
    split at h
    · cases h
    · rename_i fs₂ hsaved
      cases h
      obtain ⟨hpath, hmade⟩ := directory_ok hdirectory
      have hsink₁ : ∀ above, fs₁.entry (above ++ [fileName]) ≠ some .sink := by
        intro above hs
        have hentry := fs.makeDirectories_entry dir (above ++ [fileName])
        rw [hmade, hs] at hentry
        obtain hsame | ⟨-, hdir⟩ := hentry
        · exact hsink above hsame.symm
        · cases hdir
      obtain ⟨place, -, hd, hfs⟩ := saveTo_ok hsink₁ hsaved
      have hkeep : ∀ p, fs₁.entry p = some .directory → fs'.entry p = some .directory := by
        intro p
        rw [hfs]
        exact (Files.directory_put_iff hd (by simp) p).mpr
      have hagain : directory env fs' = (.ok dir, fs') := by
        simp only [directory, hpath, Files.makeDirectories_again hmade hkeep]
      simp only [load, hagain, loadFrom_saved hsink₁ hsaved]

/-- What becomes of a configuration in these files and this environment. -/
structure Stored (c : Config) (env : Environment) (fs : Files) : Prop where
  /-- It can be saved where the path leads somewhere that is no directory. -/
  saves : ∀ dir, (∃ fs', c.saveTo fs dir = .ok fs') ↔
    ∃ place, fs.locate (Path.join dir fileName) = .ok place ∧
      fs.entry place ≠ some .directory
  comes_back : ∀ dir fs', c.saveTo fs dir = .ok fs' → loadFrom fs' dir = .ok c
  /-- The environment's fields count, and all others are those of the configuration. -/
  overridden : ∀ c', c.override env = c' ↔ Overrides env c c'
  settled : (c.override env).override env = c.override env
  /-- Both together, in the directory where a user's configuration is kept. -/
  kept : ∀ fs', c.save env fs = (.ok (), fs') → load env fs' = (.ok (c.override env), fs')

/-- A saved configuration comes back, whatever its texts are and whichever fields it has, and the
environment is laid over it. -/
theorem saved_comes_back_overridden (c : Config) (env : Environment) (fs : Files)
    (hsink : ∀ above, fs.entry (above ++ [fileName]) ≠ some .sink) : Stored c env fs where
  saves _ := saveTo_ok_iff
  comes_back _ _ := loadFrom_saved hsink
  overridden _ := ⟨fun h => h ▸ overrides_override env c, (overrides_override env c).unique⟩
  settled := override_override env c
  kept _ := load_saved hsink

end Saving

/-- Texts that need every kind of escape, and texts of more than one byte per character. -/
def awkward : Config where
  hostname := some "\x00\x1f\x7f\"\\/\n\t"
  authkey := some "clé\u2028😀"
  ephemeral := true

def surrounding : Environment where
  get? name :=
    if name = "TSNET_BRIDGE_CONFIG_DIR" then some "/tmp/a/b"
    else if name = "TSNET_BRIDGE_EPHEMERAL" then some "0"
    else if name = "TS_AUTHKEY" then some "shared"
    else none

theorem stored_awkward :
    (∀ above, Files.root.entry (above ++ [fileName]) ≠ some .sink) ∧
      Stored awkward surrounding Files.root ∧
      (∃ fs', awkward.saveTo Files.root "/tmp" = .ok fs' ∧ loadFrom fs' "/tmp" = .ok awkward) ∧
      ∃ fs', awkward.save surrounding Files.root = (.ok (), fs') ∧
        load surrounding fs' =
          (.ok { awkward with authkey := some "shared", ephemeral := false }, fs') := by
  have hsink : ∀ above, Files.root.entry (above ++ [fileName]) ≠ some .sink := by
    intro above h
    have hlast := congrArg List.getLast? (Files.sink_of_root h)
    rw [List.getLast?_concat] at hlast
    exact absurd hlast (by decide)
  have hstored := saved_comes_back_overridden awkward surrounding Files.root hsink
  obtain ⟨fs₁, hsave₁⟩ := (hstored.saves "/tmp").mpr
    ⟨["tmp", fileName], by decide +kernel, by decide +kernel⟩
  have hsave₂ : awkward.save surrounding Files.root =
      (.ok (), (awkward.save surrounding Files.root).2) :=
    Prod.ext (by decide +kernel) rfl
  exact ⟨hsink, hstored, ⟨fs₁, hsave₁, hstored.comes_back "/tmp" fs₁ hsave₁⟩, _, hsave₂,
    hstored.kept _ hsave₂⟩

end Handoff.Config
