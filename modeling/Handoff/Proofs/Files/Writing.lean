import Handoff.Files

/-!
Files that are written: where the path of a file in a directory leads, what a write comes to by what
stands there, and that paths lead where they led before it. A path passes only through directories,
so that a file put where there was none is in nobody's way.
-/

namespace Handoff

namespace Path

structure IsName (name : String) : Prop where
  nonempty : name ≠ ""
  not_here : name ≠ "."
  not_above : name ≠ ".."
  no_slash : '/' ∉ name.toList

variable {dir name : String}

theorem names_slash (h : '/' ∉ name.toList) : names (dir ++ "/" ++ name) = names dir ++ [name] := by
  simp only [names, String.toList_append, List.append_assoc, String.reduceToList,
    List.singleton_append, List.splitOn_append_cons_self, List.splitOn_eq_singleton h,
    List.map_append, List.map_cons, List.map_nil, String.ofList_toList]

theorem IsName.not_absolute (h : IsName name) : isAbsolute name = false :=
  decide_eq_false fun hhead => h.no_slash (List.mem_of_mem_head? hhead)

/-- The last name along the path of something in a directory. -/
theorem IsName.names_join (h : IsName name) (dir : String) :
    ∃ above, names (join dir name) = above ++ [name] := by
  rw [join, if_neg (by rw [h.not_absolute]; exact Bool.false_ne_true)]
  split
  · rename_i hdir
    obtain rfl | hlast := hdir
    · refine ⟨[], ?_⟩
      rw [String.empty_append, names, List.splitOn_eq_singleton h.no_slash, List.map_singleton,
        String.ofList_toList, List.nil_append]
    · obtain ⟨front, hfront⟩ := List.getLast?_eq_some_iff.mp hlast
      have hdir : dir = String.ofList front ++ "/" := by
        rw [← String.toList_inj, hfront, String.toList_append, String.toList_ofList]
        rfl
      rw [hdir]
      exact ⟨_, names_slash h.no_slash⟩
  · exact ⟨_, names_slash h.no_slash⟩

theorem IsName.join_eq_append (h : IsName name) (dir : String) :
    ∃ front, join dir name = front ++ name := by
  rw [join, if_neg (by rw [h.not_absolute]; exact Bool.false_ne_true)]
  split
  · exact ⟨dir, rfl⟩
  · exact ⟨dir ++ "/", rfl⟩

theorem IsName.not_namesDirectory (h : IsName name) (dir : String) :
    namesDirectory (join dir name) = false := by
  obtain ⟨front, hfront⟩ := h.join_eq_append dir
  have hname : name.toList ≠ [] := fun he => h.nonempty (String.toList_eq_nil_iff.mp he)
  have hlast : (join dir name).toList.getLast? ≠ some '/' := by
    rw [hfront, String.toList_append, List.getLast?_append,
      List.getLast?_eq_some_getLast hname, Option.some_or]
    exact fun he => h.no_slash (Option.some.inj he ▸ List.getLast_mem hname)
  rw [namesDirectory, decide_eq_false hlast, Bool.false_and]

end Path

theorem bind_eq_ok_iff {ε α β : Type} {x : Except ε α} {f : α → Except ε β} {b : β} :
    x.bind f = .ok b ↔ ∃ a, x = .ok a ∧ f a = .ok b := by
  cases x with
  | error e => exact ⟨nofun, nofun⟩
  | ok a => exact ⟨fun h => ⟨a, rfl, h⟩, fun ⟨_, ha, h⟩ => Except.ok.inj ha ▸ h⟩

namespace Files
variable {fs fs' : Files} {path : String} {place : Place} {e : Entry}

theorem entry_put : (fs.put place e).entry place = some e :=
  assign_same ..

theorem entry_put_of_ne {other : Place} (h : other ≠ place) :
    (fs.put place e).entry other = fs.entry other :=
  assign_of_ne _ _ _ h

theorem put_put (e' : Entry) : (fs.put place e).put place e' = fs.put place e' := by
  rw [put, put, put, assign_assign]

theorem sink_of_root (h : root.entry place = some .sink) : place = ["dev", "null"] := by
  unfold root at h
  dsimp only at h
  split at h
  · cases h
  · split at h <;> cases h
  · rfl
  · cases h

section Walking
variable {start goal : Place} {names : List String}

/-- Where directories stay directories, walks end where they did. -/
theorem walk_of_directories
    (h : ∀ p, fs.entry p = some .directory → fs'.entry p = some .directory)
    (hw : fs.walk start names = .ok goal) : fs'.walk start names = .ok goal := by
  induction names generalizing start with
  | nil => exact hw
  | cons name names ih =>
    unfold walk at hw ⊢
    split at hw
    · cases hw
    · rename_i hd
      rw [h start hd]
      dsimp only
      split at hw
      · rw [if_pos ‹_›]
        exact ih hw
      · rw [if_neg ‹_›]
        split at hw
        · rw [if_pos ‹_›]
          exact ih hw
        · rw [if_neg ‹_›]
          split at hw
          · cases hw
          · rw [if_neg ‹_›]
            exact ih hw
    · cases hw

theorem walk_append (more : List String) :
    fs.walk start (names ++ more) = (fs.walk start names).bind fun p => fs.walk p more := by
  induction names generalizing start with
  | nil => rfl
  | cons name names ih =>
    rw [List.cons_append, walk, walk]
    split
    · rfl
    · split
      · exact ih
      · split
        · exact ih
        · split
          · rfl
          · exact ih
    · rfl

theorem locate_of_directories
    (h : ∀ p, fs.entry p = some .directory → fs'.entry p = some .directory)
    (hp : fs.locate path = .ok goal) : fs'.locate path = .ok goal := by
  unfold locate at hp ⊢
  split at hp
  · cases hp
  · split at hp
    · cases hp
    · rw [if_neg ‹_›]
      exact walk_of_directories h hp

/-- Something in a directory has the directory's place and its own name. -/
theorem locate_join {dir name : String} (hn : Path.IsName name)
    (hp : fs.locate (Path.join dir name) = .ok goal) :
    ∃ above, fs.entry above = some .directory ∧ goal = above ++ [name] := by
  obtain ⟨names, hnames⟩ := hn.names_join dir
  unfold locate at hp
  split at hp
  · cases hp
  · split at hp
    · cases hp
    · rw [hnames, walk_append] at hp
      obtain ⟨above, -, hlast⟩ := bind_eq_ok_iff.mp hp
      refine ⟨above, ?_⟩
      rw [walk] at hlast
      split at hlast
      · cases hlast
      · rename_i hd
        rw [if_neg (not_or.mpr ⟨hn.nonempty, hn.not_here⟩), if_neg hn.not_above] at hlast
        split at hlast
        · cases hlast
        · cases hlast
          exact ⟨hd, rfl⟩
      · cases hlast

end Walking

/-- A file where no directory was leaves directories as they are. -/
theorem directory_put_iff (hold : fs.entry place ≠ some .directory) (hnew : e ≠ .directory)
    (p : Place) : (fs.put place e).entry p = some .directory ↔ fs.entry p = some .directory := by
  by_cases hp : p = place
  · subst hp
    rw [entry_put]
    exact ⟨fun h => absurd (Option.some.inj h) hnew, fun h => absurd h hold⟩
  · rw [entry_put_of_ne hp]

theorem locateFile_eq_locate (h : Path.namesDirectory path = false) :
    fs.locateFile path = fs.locate path := by
  rw [locateFile, h, Bool.and_false]
  rfl

theorem find_of_entry (hp : fs.locate path = .ok place) (he : fs.entry place = some e) :
    fs.find path = .ok e := by
  rw [find, hp]
  simp only [Except.bind, he]

theorem exists_of_entry (hp : fs.locate path = .ok place) (he : fs.entry place = some e) :
    fs.exists? path = true := by
  rw [exists?, find_of_entry hp he]
  rfl

theorem read_file {content : List UInt8} {mode : Nat} (hp : fs.locate path = .ok place)
    (he : fs.entry place = some (.file content mode)) : fs.read path = .ok content := by
  rw [read, find_of_entry hp he]
  rfl

/-- What a write comes to once the place is known. -/
theorem write_eq (hp : fs.locateFile path = .ok place) (content : List UInt8) :
    fs.write path content = match fs.entry place with
      | none => .ok (fs.put place (.file content defaultMode))
      | some (.file _ mode) => .ok (fs.put place (.file content mode))
      | some .directory => .error .isDirectory
      | some .sink => .ok fs := by
  rw [write, update, hp]
  rfl

/-- A file that was just put at a place gets its permissions there. -/
theorem setMode_put {content : List UInt8} {mode : Nat} (hp : fs.locate path = .ok place)
    (hold : fs.entry place ≠ some .directory) (mode' : Nat) :
    (fs.put place (.file content mode)).setMode path mode' =
      .ok (fs.put place (.file content mode')) := by
  have hp' : (fs.put place (.file content mode)).locate path = .ok place :=
    locate_of_directories (fun p => (directory_put_iff hold (by simp) p).mpr) hp
  rw [setMode, hp']
  simp only [Except.bind, entry_put, put_put]

section MakingDirectories

theorem makeDirectory_ok {start : Place} {names : List String}
    (h : fs.makeDirectory start names = .ok fs') :
    ∃ place, fs'.walk start names = .ok place ∧ fs'.entry place = some .directory := by
  obtain ⟨place, hw, hmade⟩ := bind_eq_ok_iff.mp h
  refine ⟨place, ?_⟩
  split at hmade
  · cases hmade
    refine ⟨walk_of_directories (fun p hd => ?_) hw, entry_put⟩
    by_cases hp : p = place
    · rw [hp, entry_put]
    · rw [entry_put_of_ne hp, hd]
  · rename_i hd
    cases hmade
    exact ⟨hw, hd⟩
  · cases hmade

/-- Making a directory fills one free place at most. -/
theorem makeDirectory_entry {start : Place} {names : List String}
    (h : fs.makeDirectory start names = .ok fs') (p : Place) :
    fs'.entry p = fs.entry p ∨ fs.entry p = none ∧ fs'.entry p = some .directory := by
  obtain ⟨place, -, hmade⟩ := bind_eq_ok_iff.mp h
  split at hmade
  · rename_i hfree
    cases hmade
    by_cases hp : p = place
    · rw [hp]
      exact .inr ⟨hfree, entry_put⟩
    · exact .inl (entry_put_of_ne hp)
  · cases hmade
    exact .inl rfl
  · cases hmade

theorem makeDirectory_there {start : Place} {names : List String}
    (hw : fs.walk start names = .ok place) (hd : fs.entry place = some .directory) :
    fs.makeDirectory start names = .ok fs := by
  rw [makeDirectory, hw]
  simp only [Except.bind, hd]

theorem makeChain_ok {start : Place} {names : List String} {above : List (List String)}
    (h : fs.makeChain start (names :: above) = (.ok (), fs')) :
    ∃ fs₀ : Files, fs₀.makeDirectory start names = .ok fs' := by
  unfold makeChain at h
  split at h
  · cases h
    exact ⟨fs, ‹_›⟩
  · split at h
    · cases h
    · split at h
      · cases h
        exact ⟨_, ‹_›⟩
      · cases h
  · cases h

/-- A directory that was made with those above it is there the next time. -/
theorem makeDirectories_again {fs'' : Files} (h : fs.makeDirectories path = (.ok (), fs'))
    (hkeep : ∀ p, fs'.entry p = some .directory → fs''.entry p = some .directory) :
    fs''.makeDirectories path = (.ok (), fs'') := by
  unfold makeDirectories at h ⊢
  split at h
  · rw [if_pos ‹_›]
  · rw [if_neg ‹_›]
    split at h
    · cases h
    · obtain ⟨fs₀, hmade⟩ := makeChain_ok h
      obtain ⟨place, hw, hd⟩ := makeDirectory_ok hmade
      have hthere := makeDirectory_there (walk_of_directories hkeep hw) (hkeep place hd)
      rw [chain, makeChain, hthere]

theorem makeChain_entry (start : Place) (chain : List (List String)) (p : Place) :
    (fs.makeChain start chain).2.entry p = fs.entry p ∨
      fs.entry p = none ∧ (fs.makeChain start chain).2.entry p = some .directory := by
  induction chain with
  | nil => exact .inl rfl
  | cons names above ih =>
    unfold makeChain
    split
    · exact makeDirectory_entry ‹_› p
    · split
      · rename_i habove
        rw [habove] at ih
        exact ih
      · rename_i fs₁ habove
        rw [habove] at ih
        split
        · rename_i hmade
          obtain hsame | ⟨hfree, hnew⟩ := makeDirectory_entry hmade p
          · rw [hsame]
            exact ih
          · obtain hsame | ⟨-, hdir⟩ := ih
            · exact .inr ⟨hsame.symm.trans hfree, hnew⟩
            · cases hdir.symm.trans hfree
        · exact ih
    · exact .inl rfl

/-- Whether they could all be made or not, only free places were filled, with directories. -/
theorem makeDirectories_entry (path : String) (p : Place) :
    (fs.makeDirectories path).2.entry p = fs.entry p ∨
      fs.entry p = none ∧ (fs.makeDirectories path).2.entry p = some .directory := by
  unfold makeDirectories
  split
  · exact .inl rfl
  · split
    · exact .inl rfl
    · exact makeChain_entry ..

end MakingDirectories

end Files
end Handoff
