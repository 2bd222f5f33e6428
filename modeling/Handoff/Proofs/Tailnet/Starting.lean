import Handoff.Proofs.Tailnet.Ending

namespace Handoff.Tailnet
variable {t : Tailnet} {n m : NodeId}

/-- The coordination server, if one is named, is reached over HTTP. -/
def Settings.HasUrl (s : Settings) : Prop :=
  ∀ url, s.controlUrl = some url →
    "http://".toList <+: url.toList ∨ "https://".toList <+: url.toList

theorem urlFault_eq_none {s : Settings} : s.urlFault = none ↔ s.HasUrl := by
  unfold Settings.urlFault Settings.HasUrl
  cases s.controlUrl with
  | none => simp
  | some url =>
    generalize "http://".toList = plain, "https://".toList = secure
    simp [List.isPrefixOf_iff_prefix, Decidable.or_iff_not_imp_left]

def HasDirectory (t : Tailnet) (n : NodeId) : Prop :=
  ∀ dir, (t.node n).settings.dir = some dir → (t.files.makeDirectories dir).1 = .ok ()

structure Ready (t : Tailnet) (n : NodeId) : Prop where
  fresh : (t.node n).phase = .fresh
  url : (t.node n).settings.HasUrl
  directory : t.HasDirectory n

theorem makeStateDirectory_ok :
    (t.makeStateDirectory n).1 = .ok () ↔ t.HasDirectory n := by
  unfold makeStateDirectory HasDirectory
  cases (t.node n).settings.dir with
  | none => simp
  | some dir =>
    simp only [Option.some.injEq, forall_eq']
    cases (t.files.makeDirectories dir).1 with
    | error f => constructor <;> rintro ⟨⟩
    | ok => constructor <;> exact fun _ => rfl

theorem start_ok_iff : (t.start n).1 = .ok () ↔ t.Runs n ∨ t.Ready n := by
  constructor
  · intro h
    unfold start at h
    split at h
    · exact .inl ‹_›
    · cases h
    · rename_i hf
      split at h
      · cases h
      · rename_i hu
        split at h
        · cases h
        · rename_i t' hd
          refine .inr ⟨hf, urlFault_eq_none.mp hu, makeStateDirectory_ok.mp ?_⟩
          rw [hd]
  · rintro (hr | ⟨hf, hu, hd⟩)
    · unfold start
      rw [show (t.node n).phase = .running from hr]
    · have hmade := makeStateDirectory_ok.mpr hd
      unfold start
      rw [hf, urlFault_eq_none.mpr hu]
      dsimp only
      revert hmade
      generalize t.makeStateDirectory n = r
      obtain ⟨r, t'⟩ := r
      rintro rfl
      rfl

/-- A line in the log is a change of files at most. -/
theorem log_eq (t : Tailnet) (n : NodeId) (line : String) :
    ∃ files, t.log n line = { t with files } := by
  unfold log
  split
  · exact ⟨t.files, rfl⟩
  · split
    · exact ⟨_, rfl⟩
    · exact ⟨t.files, rfl⟩

def joined (t : Tailnet) (n : NodeId) : Tailnet :=
  { t.setNode n { t.node n with phase := .running, host := some (t.registry.lastHost + 1) } with
    registry := t.registry.addHost (t.node n).hostname }

/-- All that starting a node can come to, files apart. -/
theorem start_outcomes (t : Tailnet) (n : NodeId) :
    (t.Runs n ∧ t.start n = (.ok (), t)) ∨
    (∃ f files, t.start n = (.error f, { t with files })) ∨
    t.Ready n ∧ ∃ files, t.start n = (.ok (), { t.joined n with files }) := by
  rcases start_cases t n with hr | he | ⟨hf, files, h⟩
  · exact .inl hr
  · exact .inr (.inl he)
  · have hready : t.Ready n := by
      rcases start_ok_iff.mp (congrArg Prod.fst h) with hr | hready
      · rw [Runs, hf] at hr
        cases hr
      · exact hready
    obtain ⟨files', hlog⟩ := log_eq ({ t with files : Tailnet }.joined n) n
      s!"started as {(Address.v4 (hostV4 (t.registry.addHost (t.node n).hostname).lastHost)).name}"
    exact .inr (.inr ⟨hready, files', h.trans (congrArg (Prod.mk _) hlog)⟩)

theorem start_running (h : t.Runs n) : t.start n = (.ok (), t) := by
  unfold start
  rw [show (t.node n).phase = .running from h]

theorem start_closed (h : (t.node n).phase = .closed) : t.start n = (.error .serverClosed, t) := by
  unfold start
  rw [h]

theorem start_error {f : Fault} (h : (t.start n).1 = .error f) :
    ∃ files, t.start n = (.error f, { t with files }) := by
  rcases start_outcomes t n with ⟨-, he⟩ | ⟨g, files, he⟩ | ⟨-, files, he⟩ <;> rw [he] at h
  · cases h
  · cases h
    exact ⟨files, he⟩
  · cases h

/-- What goes on from the start of its node fails with it, or goes on. -/
theorem of_start {α : Type} {P : Except Fault α × Tailnet → Prop}
    {k : Tailnet → Except Fault α × Tailnet}
    (hfailed : ∀ f, (t.start n).1 = .error f → P (.error f, (t.start n).2))
    (hstarted : (t.start n).1 = .ok () → P (k (t.start n).2)) {p : Except Fault α × Tailnet}
    (hp : p = match t.start n with
      | (.error f, t) => (.error f, t)
      | (.ok (), t) => k t) : P p := by
  rw [hp]
  revert hfailed hstarted
  generalize t.start n = r
  obtain ⟨r, u⟩ := r
  intro hfailed hstarted
  cases r with
  | error f => exact hfailed f rfl
  | ok => exact hstarted rfl

end Handoff.Tailnet
