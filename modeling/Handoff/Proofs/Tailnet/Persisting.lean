import Handoff.Proofs.Files.Presence
import Handoff.Proofs.Tailnet.Admitting
import Handoff.Proofs.Traffic.Indifference

/-!
What becomes of the files that nodes leave for later ones. Only a node that comes up puts such a
file at its place; what else is asked of nodes makes directories and writes to logs.
-/

namespace Handoff.Tailnet
variable {p : Place} {t t' t'' : Tailnet} {n m : NodeId}

theorem isName_stateFileName : Path.IsName stateFileName where
  nonempty := by decide
  not_here := by decide
  not_above := by decide
  no_slash := by decide

namespace Settings
variable {s : Settings} {host : Option Nat} {fs fs' : Files}

structure Leaves (s : Settings) (fs : Files) (p : Place) : Prop where
  lasting : s.ephemeral = false
  leads : ∃ path, s.stateFile = some path ∧ fs.locate path = .ok p

/-- Where a node with these settings leaves something, there is a place for it. -/
def HasPlace (s : Settings) (fs : Files) : Prop :=
  s.ephemeral = false → ∀ path, s.stateFile = some path → ∃ p, fs.locate path = .ok p

theorem locateFile_stateFile {path : String} (h : s.stateFile = some path) (fs : Files) :
    fs.locateFile path = fs.locate path := by
  obtain ⟨dir, -, rfl⟩ := Option.map_eq_some_iff.mp h
  exact Files.locateFile_eq_locate (isName_stateFileName.not_namesDirectory dir)

section Directories
variable (hd : ∀ q, fs.entry q = some .directory → fs'.entry q = some .directory)
include hd

theorem HasPlace.kept (h : s.HasPlace fs) : s.HasPlace fs' := fun he path hpath =>
  (h he path hpath).imp fun _ => Files.locate_of_directories hd

/-- Where directories stay, a place that was found is found again, and no other. -/
theorem HasPlace.leaves_iff (h : s.HasPlace fs) : s.Leaves fs' p ↔ s.Leaves fs p := by
  constructor
  · rintro ⟨hlasting, path, hpath, hlead⟩
    obtain ⟨q, hq⟩ := h hlasting path hpath
    obtain rfl : q = p :=
      Except.ok.inj ((Files.locate_of_directories hd hq).symm.trans hlead)
    exact ⟨hlasting, path, hpath, hq⟩
  · rintro ⟨hlasting, path, hpath, hlead⟩
    exact ⟨hlasting, path, hpath, Files.locate_of_directories hd hlead⟩

end Directories

structure Saved (p : Place) (s : Settings) (fs fs' : Files) : Prop where
  directories : ∀ q, fs.entry q = some .directory → fs'.entry q = some .directory
  place : s.HasPlace fs'
  file : fs'.HoldsFile p ↔ fs.HoldsFile p ∨ s.Leaves fs' p

theorem Saved.after (h : Saved p s fs fs') {fs₀ : Files} (h₀ : fs₀.Spares p fs) :
    Saved p s fs₀ fs' where
  directories := fun q hq => h.directories q (h₀.directories q hq)
  place := h.place
  file := h.file.trans (or_congr_left h₀.file)

theorem Saved.before (h : Saved p s fs fs') {fs'' : Files} (h' : fs'.Spares p fs'') :
    Saved p s fs fs'' where
  directories := fun q hq => h'.directories q (h.directories q hq)
  place := h.place.kept h'.directories
  file := by rw [h'.file, h.file, h.place.leaves_iff h'.directories]

theorem saved_nothing (h : s.ephemeral = true ∨ s.stateFile = none) : Saved p s fs fs where
  directories := fun _ => id
  place := fun he path hpath => by
    rcases h with h | h
    · cases he.symm.trans h
    · cases h.symm.trans hpath
  file := by
    refine (or_iff_left ?_).symm
    rintro ⟨hlasting, path, hpath, -⟩
    rcases h with h | h
    · cases hlasting.symm.trans h
    · cases h.symm.trans hpath

theorem saved_written {path : String} {place : Place} (he : s.ephemeral = false)
    (hpath : s.stateFile = some path) (h : Files.Written path place fs fs') :
    Saved p s fs fs' := by
  have hplace : fs'.locate path = .ok place :=
    Files.locate_of_directories h.directories (locateFile_stateFile hpath fs ▸ h.located)
  refine ⟨h.directories, fun _ other hother => ?_, ?_⟩
  · obtain rfl := Option.some.inj (hpath.symm.trans hother)
    exact ⟨place, hplace⟩
  · by_cases hp : p = place
    · subst hp
      exact iff_of_true h.file (.inr ⟨he, path, hpath, hplace⟩)
    · rw [Files.holdsFile_of_entry (h.others p hp)]
      refine (or_iff_left ?_).symm
      rintro ⟨-, other, hother, hlead⟩
      obtain rfl := Option.some.inj (hpath.symm.trans hother)
      exact hp (Except.ok.inj (hlead.symm.trans hplace))

theorem saved_of_save (h : s.save host fs = .ok fs') : Saved p s fs fs' := by
  unfold save at h
  split at h
  · cases h
    exact saved_nothing (.inr ‹_›)
  · rename_i path hpath
    split at h
    · cases h
      exact saved_nothing (.inl ‹_›)
    · rename_i he
      dsimp only at h
      generalize hw : fs.write path _ = r at h
      cases r with
      | error e => cases h
      | ok fs₁ =>
        cases h
        obtain ⟨place, hwritten⟩ := Files.written_of_update hw
        exact saved_written (Bool.not_eq_true _ ▸ he) hpath hwritten

end Settings

def Aloof (t : Tailnet) (p : Place) : Prop :=
  ∀ n path, (t.node n).log = some path → Files.Avoids path p

/-- No file has come or gone at the place `p`, and no node has come up. -/
structure Untouched (p : Place) (t t' : Tailnet) : Prop where
  files : t.files.Spares p t'.files
  online : ∀ n, (t'.node n).online = true → (t.node n).online = true
  aloof : t.Aloof p → t'.Aloof p

theorem Untouched.refl (p : Place) (t : Tailnet) : Untouched p t t :=
  ⟨.refl p t.files, fun _ => id, id⟩

theorem Untouched.trans (h : Untouched p t t') (h' : Untouched p t' t'') : Untouched p t t'' :=
  ⟨h.files.trans h'.files, fun n hn => h.online n (h'.online n hn), h'.aloof ∘ h.aloof⟩

theorem untouched_of_node (hfiles : t.files.Spares p t'.files) (hnode : t'.node = t.node) :
    Untouched p t t' := by
  refine ⟨hfiles, fun n => ?_, fun h n => ?_⟩ <;> rw [hnode]
  · exact id
  · exact h n

theorem untouched_of_eq (hfiles : t'.files = t.files) (hnode : t'.node = t.node) :
    Untouched p t t' :=
  untouched_of_node (hfiles ▸ .refl p t.files) hnode

/-- Where one node changes and does not come up. -/
theorem untouched_of_setNode {x : Node} (hfiles : t'.files = t.files)
    (hnode : t'.node = (t.setNode n x).node)
    (honline : x.online = true → (t.node n).online = true)
    (hlog : ∀ path, x.log = some path → (t.node n).log = some path) : Untouched p t t' := by
  refine ⟨hfiles ▸ .refl p t.files, fun m hm => ?_, fun h m path hm => ?_⟩ <;>
    rw [hnode, node_setNode] at hm <;> split at hm
  · subst m
    exact honline hm
  · exact hm
  · exact h n path (hlog path hm)
  · exact h m path hm

theorem Untouched.log {u : Tailnet} (hu : Untouched p t u) (h : t.Aloof p) (n : NodeId)
    (line : String) : Untouched p t (u.log n line) := by
  have hnode : (u.log n line).node = u.node := funext fun m => node_log u n m line
  refine hu.trans (untouched_of_node ?_ hnode)
  unfold Tailnet.log
  split
  · exact .refl p u.files
  · rename_i path hpath
    split
    · exact Files.spares_append (hu.aloof h n path hpath) ‹_›
    · exact .refl p u.files

section Listeners

theorem untouched_closeListener (t : Tailnet) (l : ListenerId) :
    Untouched p t (t.closeListener l) := by
  refine untouched_of_eq ?_ (node_closeListener t l)
  unfold closeListener
  split
  · rfl
  · unfold wake
    split
    · rfl
    · rename_i id u h
      obtain ⟨k, -, -, rfl⟩ := connect_ok h
      rfl

theorem untouched_releaseListener (t : Tailnet) (l : ListenerId) :
    Untouched p t (t.releaseListener l) := by
  refine untouched_of_eq ?_ (node_releaseListener t l)
  unfold releaseListener
  dsimp only
  split <;> rfl

theorem indifferent_untouched (p : Place) : Indifferent (Untouched p) where
  refl := .refl p
  trans := .trans
  streams := fun _ _ _ => untouched_of_eq rfl rfl
  backlog := fun _ _ _ => untouched_of_eq rfl rfl
  close := untouched_closeListener
  release := untouched_releaseListener

theorem untouched_dropListeners (t : Tailnet) (n : NodeId) : Untouched p t (t.dropListeners n) := by
  have hlists : Untouched p t (t.setNode n { t.node n with listeners := [] }) :=
    untouched_of_setNode rfl rfl id fun _ => id
  exact hlists.trans ((indifferent_untouched p).foldl untouched_releaseListener _ _)

theorem untouched_releaseNode (t : Tailnet) (n : NodeId) : Untouched p t (t.releaseNode n) :=
  (untouched_dropListeners t n).trans
    (untouched_of_setNode rfl rfl id fun _ => nofun)

theorem untouched_openListener (t : Tailnet) (n : NodeId) (plan : ListenPlan) :
    Untouched p t (t.openListener n plan).2 := by
  let opened := (t.node n).listeners.filter fun l => !(t.listener l).closed
  have hlists : Untouched p t (t.setNode n { t.node n with listeners := opened }) :=
    untouched_of_setNode rfl rfl id fun _ => id
  have hpruned : Untouched p t (t.pruneListeners n) :=
    hlists.trans ((indifferent_untouched p).foldl untouched_releaseListener _ _)
  exact hpruned.trans (untouched_of_setNode rfl rfl id fun _ => id)

end Listeners

theorem untouched_connect {backing : Endpoint} {arrival : StreamId → Arrival} {id : StreamId}
    (h : t.connect backing arrival = .ok (id, t')) : Untouched p t t' := by
  obtain ⟨l, -, -, rfl⟩ := connect_ok h
  exact untouched_of_eq rfl rfl

theorem untouched_recordDialer (t : Tailnet) (n : NodeId) (id : StreamId) (target : Endpoint) :
    Untouched p t (t.recordDialer n id target) := by
  refine untouched_of_eq ?_ (node_recordDialer t n id target)
  unfold recordDialer
  split <;> rfl

section Asking
variable {α : Type} (h : t.Aloof p)
include h

theorem untouched_start (n : NodeId) : Untouched p t (t.start n).2 := by
  unfold start
  split
  · exact .refl p t
  · exact .refl p t
  · split
    · exact .refl p t
    · have hmade : Untouched p t (t.makeStateDirectory n).2 := by
        unfold makeStateDirectory
        split
        · exact .refl p t
        · exact untouched_of_node (t.files.spares_makeDirectories _) rfl
      revert hmade
      generalize t.makeStateDirectory n = r
      obtain ⟨r, u⟩ := r
      intro hmade
      cases r with
      | error f => exact hmade
      | ok =>
        have hjoined : Untouched p u (u.joined n) :=
          untouched_of_setNode rfl rfl id fun _ => id
        exact (hmade.trans hjoined).log h n _

/-- What goes on from the start of its node. -/
theorem untouched_of {k : Tailnet → Except Fault α × Tailnet}
    (hk : ∀ t : Tailnet, t.Aloof p → Untouched p t (k t).2) {r : Except Fault α × Tailnet}
    (hr : r = match t.start n with
      | (.error f, t) => (.error f, t)
      | (.ok (), t) => k t) : Untouched p t r.2 := by
  have hstart := untouched_start h n
  exact of_start (P := fun r => Untouched p t r.2) (fun _ _ => hstart)
    (fun _ => hstart.trans (hk _ (hstart.aloof h))) hr

theorem untouched_dial (n : NodeId) (network address : String) :
    Untouched p t (t.dial n network address).2 := by
  rw [dial_eq]
  split
  · exact .refl p t
  · refine untouched_of h (fun t h => ?_) rfl
    split
    · exact .refl p t
    · rename_i target route _
      split
      · exact .refl p t
      · rename_i id u hconn
        exact ((untouched_connect hconn).trans (untouched_recordDialer u n id target)).log h n _

theorem untouched_listen (n : NodeId) (network address : String) (funnel : Option FunnelMode) :
    Untouched p t (t.listen n network address funnel).2 := by
  unfold listen
  split
  · exact .refl p t
  · refine untouched_of h (fun t h => ?_) rfl
    split
    · exact .refl p t
    · exact (untouched_openListener t n _).log h n _

theorem untouched_loopback (n : NodeId) : Untouched p t (t.loopback n).2 := by
  refine untouched_of h (fun t h => ?_) rfl
  split
  · exact .refl p t
  · split
    · exact .refl p t
    · refine Untouched.log ?_ h n _
      exact untouched_of_setNode rfl rfl id fun _ => id

theorem untouched_close (n : NodeId) : Untouched p t (t.close n).2 := by
  unfold close
  dsimp only
  split
  · exact .refl p t
  · let x : Node := { t.node n with phase := .closed, online := false, loopback := none }
    have hended : Untouched p t (t.setNode n x) :=
      untouched_of_setNode rfl rfl nofun fun _ => id
    have hclosed := (indifferent_untouched p).foldl untouched_closeListener (t.setNode n x)
      (t.node n).listeners
    have hdropped := (hended.trans hclosed).trans (untouched_dropListeners _ n)
    refine Untouched.log (hdropped.trans ?_) h n _
    exact untouched_of_eq rfl rfl

omit h in
theorem untouched_configure (n : NodeId) {option : NodeOption}
    (hlog : ∀ path, option ≠ .logFile path) : Untouched p t (t.configure n option).2 := by
  unfold configure
  split
  · have hsets := sets_configure option (t.node n)
    refine untouched_of_setNode rfl rfl (fun ho => hsets.online ▸ ho) fun path hpath => ?_
    cases option with
    | logFile path => exact absurd rfl (hlog path)
    | _ => exact hpath
  · exact .refl p t

/-- Only coming up touches files that are left for later nodes. -/
theorem untouched_ask {v : NodeVerb} (hup : v ≠ .up)
    (hlog : ∀ path, v ≠ .configure (.logFile path)) (n : NodeId) :
    Untouched p t (t.ask n v).2 := by
  cases v with
  | configure option =>
    exact untouched_configure n fun path he => hlog path (congrArg NodeVerb.configure he)
  | start => exact untouched_start h n
  | up => exact absurd rfl hup
  | dial network address => exact untouched_dial h n network address
  | listen network address funnel => exact untouched_listen h n network address funnel
  | loopback => exact untouched_loopback h n
  | close => exact untouched_close h n
  | addresses => exact .refl p t
  | certDomains => exact .refl p t

structure LogsIn (p : Place) (n : NodeId) (t t' : Tailnet) : Prop where
  runs : t'.Runs n
  settings : (t'.node n).settings = (t.node n).settings
  online : ∀ m, m ≠ n → (t'.node m).online = true → (t.node m).online = true
  files : Settings.Saved p (t.node n).settings t.files t'.files
  aloof : t'.Aloof p

omit h in
theorem logsIn_admitted {u : Tailnet} (h : u.Aloof p) (hr : u.Runs n) {files : Files}
    (hs : (u.node n).settings.save (u.node n).host u.files = .ok files) :
    LogsIn p n u (({ u with files }.setNode n { u.node n with online := true }).log n "up") := by
  let v : Tailnet := { u with files }.setNode n { u.node n with online := true }
  have hnode : ∀ m, ((v.log n "up").node m) =
      if m = n then { u.node n with online := true } else u.node m := fun m => node_log v n m "up"
  have haloof : v.Aloof p := by
    intro m path hm
    change (if m = n then _ else u.node m).log = some path at hm
    split at hm
    · exact h n path hm
    · exact h m path hm
  have hlogged : Untouched p v (v.log n "up") := (Untouched.refl p v).log haloof n "up"
  refine ⟨?_, ?_, fun m hm => ?_, ?_, hlogged.aloof haloof⟩
  · change ((v.log n "up").node n).phase = .running
    rw [hnode, if_pos rfl]
    exact hr
  · change ((v.log n "up").node n).settings = _
    rw [hnode, if_pos rfl]
  · change ((v.log n "up").node m).online = true → _
    rw [hnode, if_neg hm]
    exact id
  · exact (Settings.saved_of_save hs).before hlogged.files

/-- Bringing up a node does nothing to files that are left, or the node comes up. -/
theorem up_cases (n : NodeId) :
    Untouched p t (t.up n).2 ∧ ((t.up n).1 = .ok () → (t.node n).online = true) ∨
      (t.up n).1 = .ok () ∧ LogsIn p n t (t.up n).2 := by
  have hstart := untouched_start h n
  cases hs : (t.start n).1 with
  | error f =>
    rw [up_failed hs]
    exact .inl ⟨hstart, fun he => by cases hs.symm.trans he⟩
  | ok =>
    have hcomes := comesUp_running (runs_start hs)
    rw [up_start hs]
    revert hcomes
    generalize (t.start n).2.up n = r
    intro hcomes
    cases hcomes with
    | online ho => exact .inl ⟨hstart, fun _ => hstart.online n ho⟩
    | needsLogin => exact .inl ⟨hstart, nofun⟩
    | unsaved => exact .inl ⟨hstart, nofun⟩
    | admitted files ho ha hsaved =>
      have hin := logsIn_admitted (hstart.aloof h) (runs_start hs) hsaved
      have hsettings : ((t.start n).2.node n).settings = (t.node n).settings :=
        settings_ask t n (v := .start) nofun
      refine .inr ⟨rfl, hin.runs, hin.settings.trans hsettings,
        fun m hm ho => hstart.online m (hin.online m hm ho), ?_, hin.aloof⟩
      rw [← hsettings]
      exact hin.files.after hstart.files

theorem aloof_up (n : NodeId) : (t.up n).2.Aloof p := by
  rcases up_cases h n with ⟨huntouched, -⟩ | ⟨-, hin⟩
  · exact huntouched.aloof h
  · exact hin.aloof

/-- An ephemeral node leaves nothing. -/
theorem spares_up (he : (t.node n).settings.ephemeral = true) :
    t.files.Spares p (t.up n).2.files := by
  rcases up_cases h n with ⟨huntouched, -⟩ | ⟨-, hin⟩
  · exact huntouched.files
  · refine ⟨hin.files.directories, hin.files.file.trans (or_iff_left fun hleaves => ?_)⟩
    cases he.symm.trans hleaves.lasting

end Asking

end Handoff.Tailnet
