import Handoff.Proofs.Files.Writing

/-!
Which places hold a file, and what leaves that as it is: directories that are made, and whatever is
written elsewhere.
-/

namespace Handoff.Files
variable {fs fs' fs'' : Files} {path : String} {p place : Place}

def HoldsFile (fs : Files) (p : Place) : Prop :=
  ∃ e, fs.entry p = some e ∧ e ≠ .directory

/-- Directories stay, and no file comes or goes at the place `p`. -/
structure Spares (p : Place) (fs fs' : Files) : Prop where
  directories : ∀ q, fs.entry q = some .directory → fs'.entry q = some .directory
  file : fs'.HoldsFile p ↔ fs.HoldsFile p

def Avoids (path : String) (p : Place) : Prop :=
  ∀ fs : Files, fs.locateFile path ≠ .ok p

theorem Spares.refl (p : Place) (fs : Files) : fs.Spares p fs :=
  ⟨fun _ => id, .rfl⟩

theorem Spares.trans (h : Spares p fs fs') (h' : Spares p fs' fs'') : Spares p fs fs'' :=
  ⟨fun q hq => h'.directories q (h.directories q hq), h'.file.trans h.file⟩

theorem holdsFile_of_entry (h : fs'.entry p = fs.entry p) : fs'.HoldsFile p ↔ fs.HoldsFile p := by
  unfold HoldsFile
  rw [h]

theorem not_holdsFile_of_directory (h : fs.entry p = some .directory) : ¬ fs.HoldsFile p := by
  rintro ⟨e, he, hne⟩
  exact hne (Option.some.inj (he.symm.trans h))

theorem spares_makeDirectories (fs : Files) (path : String) :
    fs.Spares p (fs.makeDirectories path).2 where
  directories := fun q hq => by
    obtain hsame | ⟨hfree, -⟩ := fs.makeDirectories_entry path q
    · exact hsame.trans hq
    · cases hq.symm.trans hfree
  file := by
    obtain hsame | ⟨hfree, hnew⟩ := fs.makeDirectories_entry path p
    · exact holdsFile_of_entry hsame
    · refine iff_of_false (not_holdsFile_of_directory hnew) ?_
      rintro ⟨e, he, -⟩
      cases he.symm.trans hfree

structure Written (path : String) (place : Place) (fs fs' : Files) : Prop where
  located : fs.locateFile path = .ok place
  file : fs'.HoldsFile place
  directories : ∀ q, fs.entry q = some .directory → fs'.entry q = some .directory
  others : ∀ q, q ≠ place → fs'.entry q = fs.entry q

theorem written_put {e : Entry} (hp : fs.locateFile path = .ok place)
    (hold : fs.entry place ≠ some .directory) (hnew : e ≠ .directory) :
    Written path place fs (fs.put place e) where
  located := hp
  file := ⟨e, entry_put, hnew⟩
  directories := fun q hq => (directory_put_iff hold hnew q).mpr hq
  others := fun _ hq => entry_put_of_ne hq

theorem written_of_update {f : List UInt8 → List UInt8} (h : fs.update path f = .ok fs') :
    ∃ place, Written path place fs fs' := by
  obtain ⟨place, hp, hwritten⟩ := bind_eq_ok_iff.mp h
  refine ⟨place, ?_⟩
  split at hwritten <;> rename_i he
  · cases hwritten
    exact written_put hp (by simp [he]) nofun
  · cases hwritten
    exact written_put hp (by simp [he]) nofun
  · cases hwritten
  · cases hwritten
    exact ⟨hp, ⟨_, he, nofun⟩, fun _ => id, fun _ _ => rfl⟩

theorem Written.spares (h : Written path place fs fs') (hp : p ≠ place) : fs.Spares p fs' :=
  ⟨h.directories, holdsFile_of_entry (h.others p hp)⟩

theorem spares_append {bytes : List UInt8} (hp : Avoids path p)
    (h : fs.append path bytes = .ok fs') : fs.Spares p fs' := by
  obtain ⟨place, hwritten⟩ := written_of_update h
  exact hwritten.spares fun he => hp fs (he ▸ hwritten.located)

/-- What is there is a file, or a directory. -/
theorem exists_iff (hp : fs.locate path = .ok p) :
    fs.exists? path = true ↔ fs.HoldsFile p ∨ fs.entry p = some .directory := by
  rw [exists?, find, hp]
  unfold HoldsFile
  cases he : fs.entry p with
  | none => simp [Except.bind, Except.isOk, Except.toBool, he]
  | some e => cases e <;> simp [Except.bind, Except.isOk, Except.toBool, he]

theorem located_of_exists (h : fs.exists? path = true) : ∃ p, fs.locate path = .ok p := by
  unfold exists? find at h
  cases hp : fs.locate path with
  | error e =>
    rw [hp] at h
    cases h
  | ok p => exact ⟨p, rfl⟩

end Handoff.Files
